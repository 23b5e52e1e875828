import ChessServer.Proofs.Auth
import ChessServer.Proofs.GameRenewal

/-!
# Two runs of the state objects

The handlers of the four states keep the runs together.  Whoever asks for a
chair gets its `locate` in both runs, so that from then on the runs differ in
the size of a buffer only (`Renewed.seek`).
-/

namespace ChessServer

variable {env : Env} {u v : SessionId} {loose : Prop} {w w' : World}

namespace Renewed

/-! ## The hall -/

theorem setNextState (h : Renewed env v loose w w') (u : SessionId)
    (state : StateType) :
    Option.Rel (Renewed env v loose) (setNextState u state w)
      (setNextState u state w') :=
  h.modifyUser u (inert_of (fun _ _ => rfl) (fun _ => rfl) fun _ => rfl)

theorem echoMsgHandle (h : Renewed env v loose w w') (u : SessionId)
    (msg : Bytes) :
    Option.Rel (Lockstep.Same (Renewed env v loose))
      (echoMsgHandle env u msg w) (echoMsgHandle env u msg w') := by
  unfold ChessServer.echoMsgHandle
  refine Lockstep.value (h.messageReply u _ _) fun _ w₁ w₁' h₁ => ?_
  exact .some ⟨rfl, h₁⟩

/-- A hall is shown on request. -/
theorem hallInfoReqHandle (h : Renewed env v loose w w') (u : SessionId)
    (msg : Bytes) :
    Option.Rel (Lockstep.Same (Renewed env v loose))
      (hallInfoReqHandle env u msg w) (hallInfoReqHandle env u msg w') := by
  unfold ChessServer.hallInfoReqHandle
  split
  · exact .some ⟨rfl, h⟩
  · refine Lockstep.value (h.wrapHallInfo _) fun info w₁ w₁' h₁ => ?_
    cases info with
    | none => exact .some ⟨rfl, h₁⟩
    | some info =>
        refine Lockstep.value (h₁.messageReply u _ _) fun _ w₂ w₂' h₂ => ?_
        exact .some ⟨rfl, h₂⟩

/-- A field of a user is assigned and stored. -/
theorem updateField (h : Renewed env v loose w w') (u : SessionId)
    (value : Option Bytes) (set : Bytes → UsersInfo → UsersInfo)
    {toDB : Bytes → Bytes → World → Bool × World}
    (hdb : ∀ account value w w', Renewed env v loose w w' →
      Lockstep.Same (Renewed env v loose) (toDB account value w)
        (toDB account value w')) :
    Option.Rel (Renewed env v loose) (updateField u value set toDB w)
      (updateField u value set toDB w') := by
  unfold ChessServer.updateField
  cases value with
  | none => exact .some h
  | some value =>
      refine Lockstep.bind (h.user u) fun s s' hm => ?_
      have hset := h.setUser hm
        (fun s => { s with userInfo := set value s.userInfo })
        (inert_of (fun _ _ => rfl) (fun _ => rfl) fun _ => rfl)
      obtain ⟨locate, rfl⟩ := hm.differ
      refine Lockstep.read rfl fun thread _ => ?_
      exact .some (hdb _ _ _ _ hset).2

/-- The five fields are compared with the same old values. -/
theorem updateUserInfos (h : Renewed env v loose w w') (u : SessionId)
    (msg : Bytes) :
    Option.Rel (Lockstep.Same (Renewed env v loose))
      (updateUserInfos env u msg w) (updateUserInfos env u msg w') := by
  unfold ChessServer.updateUserInfos
  split
  · exact .some ⟨rfl, h⟩
  · refine Lockstep.bind (h.user u) fun s s' hm => ?_
    obtain ⟨locate, rfl⟩ := hm.differ
    dsimp only
    refine Lockstep.bind (h.updateField u _ _
      fun _ _ _ _ h => h.mysqlDbExcute _) fun w₁ w₁' h₁ => ?_
    refine Lockstep.bind (h₁.updateField u _ _
      fun _ _ _ _ h => h.mysqlDbExcute _) fun w₂ w₂' h₂ => ?_
    refine Lockstep.bind (h₂.updateField u _ _
      fun _ _ _ _ h => h.mysqlDbExcute _) fun w₃ w₃' h₃ => ?_
    refine Lockstep.bind (h₃.updateField u _ _
      fun _ _ _ _ h => h.mysqlDbExcute _) fun w₄ w₄' h₄ => ?_
    refine Lockstep.bind (h₄.updateField u _ _
      fun _ _ _ _ h => h.mysqlDbExcute _) fun w₅ w₅' h₅ => ?_
    exact .some ⟨rfl, h₅⟩

/-! ## Logging in -/

/-- A registration is stored alike. -/
theorem handleRegister (h : Renewed env v loose w w') (u : SessionId)
    (msg : Bytes) :
    Option.Rel (Lockstep.Same (Renewed env v loose))
      (handleRegister env u msg w) (handleRegister env u msg w') := by
  unfold ChessServer.handleRegister
  split
  · exact .some ⟨rfl, h⟩
  · refine Lockstep.bind (h.user u) fun s s' hm => ?_
    obtain ⟨locate, rfl⟩ := hm.differ
    refine Lockstep.read rfl fun thread _ => ?_
    unfold insertUsersInfoToDB
    obtain ⟨hok, hexec⟩ := h.mysqlDbExcute _
    dsimp only
    rw [hok]
    refine Lockstep.value (hexec.messageReply u _ _) fun _ w₁ w₁' h₁ => ?_
    exact .some ⟨rfl, h₁⟩

/-- An account is in use in both runs or in neither. -/
theorem getIndividualUser (h : Renewed env v loose w w') (account : Bytes) :
    getIndividualUser account w' = getIndividualUser account w := by
  unfold ChessServer.getIndividualUser
  have hknows : ∀ x, (w'.users x).map (fun s => s.userInfo.account == account) =
      (w.users x).map fun s => s.userInfo.account == account :=
    fun x => h.look x _ fun _ _ => rfl
  simp only [hknows, h.fdSessionMap]

/-- The replies to a login are the same. -/
theorem loginAccepted (h : Renewed env v loose w w') (u : SessionId) :
    Option.Rel (Lockstep.Same (Renewed env v loose)) (loginAccepted env u w)
      (loginAccepted env u w') := by
  unfold ChessServer.loginAccepted
  refine Lockstep.bind (h.user u) fun s s' hm => ?_
  obtain ⟨locate, rfl⟩ := hm.differ
  obtain ⟨_, hphoto, hquery⟩ :=
    h.getHeadImageFromDB s.userInfo.account s.userInfo.headPhoto
  dsimp only
  rw [hphoto]
  refine Lockstep.bind (hquery.modifyUser u (inert_of
    (fun _ _ => rfl) (fun _ => rfl) fun _ => rfl)) fun w₁ w₁' h₁ => ?_
  refine Lockstep.bind (h₁.user u) fun s s' hm => ?_
  obtain ⟨locate, rfl⟩ := hm.differ
  obtain ⟨hok, himage, hversion⟩ := h₁.getImageVersionInfoFromDB {}
  dsimp only
  rw [hok, himage]
  exact .some ⟨rfl, hversion⟩

/-- A login passes in both runs or in neither. -/
theorem checkLogin (h : Renewed env v loose w w') (u : SessionId)
    (login : LogOnorOut) :
    Option.Rel (Lockstep.Same (Lockstep.Same (Renewed env v loose)))
      (checkLogin env u login w) (checkLogin env u login w') := by
  unfold ChessServer.checkLogin
  refine Lockstep.bind (h.user u) fun s s' hm => ?_
  obtain ⟨locate, rfl⟩ := hm.differ
  refine Lockstep.read rfl fun thread _ => ?_
  refine Lockstep.read (h.getIndividualUser login.account) fun free _ => ?_
  refine Lockstep.ite (fun _ => .some ⟨rfl, rfl, h⟩) fun _ => ?_
  refine Lockstep.values (h.getUsersInfoFromDB login.account s.userInfo)
    fun found info w₁ w₁' h₁ => ?_
  refine Lockstep.bind (h₁.modifyUser u (inert_of
    (fun _ _ => rfl) (fun _ => rfl) fun _ => rfl)) fun w₂ w₂' h₂ => ?_
  refine Lockstep.ite (fun _ => .some ⟨rfl, rfl, h₂⟩) fun _ => ?_
  refine Lockstep.ite (fun _ => ?_) fun _ => ?_
  · refine Lockstep.value (h₂.loginAccepted u) fun status w₃ w₃' h₃ => ?_
    exact .some ⟨rfl, rfl, h₃⟩
  · refine Lockstep.bind (h₂.modifyUser u (inert_of
      (fun _ _ => rfl) (fun _ => rfl) fun _ => rfl)) fun w₃ w₃' h₃ => ?_
    exact .some ⟨rfl, rfl, h₃⟩

theorem handleLogin (h : Renewed env v loose w w') (u : SessionId)
    (msg : Bytes) :
    Option.Rel (Lockstep.Same (Renewed env v loose)) (handleLogin env u msg w)
      (handleLogin env u msg w') := by
  unfold ChessServer.handleLogin
  split
  · exact .some ⟨rfl, h⟩
  · refine Lockstep.values (h.checkLogin u _) fun ret status w₁ w₁' h₁ => ?_
    refine Lockstep.value (h₁.messageReply u _ _) fun _ w₂ w₂' h₂ => ?_
    exact .some ⟨rfl, h₂⟩

theorem handleFindPwd (h : Renewed env v loose w w') (msg : Bytes) :
    Lockstep.Same (Renewed env v loose) (handleFindPwd env msg w)
      (handleFindPwd env msg w') := by
  unfold ChessServer.handleFindPwd
  split
  · exact ⟨rfl, h⟩
  · rename_i pwd _
    exact ⟨rfl, h.record (f := fun w => { w with findPwd := pwd.email :: w.findPwd })
      (fun _ => rfl) (fun _ => rfl) (fun _ => rfl) fun _ => rfl⟩

/-- A message before the login. -/
theorem stateAuthMsgHandle (h : Renewed env v loose w w') (u : SessionId)
    (msgType : UInt32) (msg : Bytes) :
    Option.Rel (Lockstep.Same (Renewed env v loose))
      (stateAuthMsgHandle env u msgType msg w)
      (stateAuthMsgHandle env u msgType msg w') := by
  unfold ChessServer.stateAuthMsgHandle
  split
  · exact h.handleRegister u msg
  · refine Lockstep.value (h.handleLogin u msg) fun ret w₁ w₁' h₁ => ?_
    refine Lockstep.bind (Lockstep.ite (fun _ => h₁.setNextState u .downAd)
      fun _ => .some h₁) fun w₂ w₂' h₂ => ?_
    exact .some ⟨rfl, h₂⟩
  · exact .some ⟨rfl, h⟩
  · exact h.echoMsgHandle u msg
  · exact .some (h.handleFindPwd msg)
  · exact .some ⟨rfl, h⟩


/-! ## Pictures -/

/-- A picture is assigned in both runs. -/
theorem setPicture (h : Renewed env v loose w w') (u : SessionId)
    (fp : Option Bytes)
    (hfp : env.SmallPictures → ∀ s, w.users u = some s → s.SmallPicture →
      ∀ file, fp = some file → file.length ≤ maxDataLength) :
    Option.Rel (Renewed env v loose)
      (w.modifyUser u fun s => { s with adImgFp := fp })
      (w'.modifyUser u fun s => { s with adImgFp := fp }) := by
  unfold World.modifyUser
  exact Lockstep.map (h.user u) fun s s' hm =>
    h.assign hm (f := fun s => { s with adImgFp := fp }) (fun _ _ => rfl)
      (fun _ hnone => hnone) fun hsmall hpic => hfp hsmall s hm.left hpic

/-- Where there is room for the longest frame, both runs cut the same piece off
the picture. -/
theorem piece (h : Renewed env v loose w w') {s : UserSession} {fp : Bytes}
    (hroom : maxDataLength ≤ w.bufSize u) (hroom' : maxDataLength ≤ w'.bufSize u)
    (hs : w.users u = some s) (hfp : s.adImgFp = some fp) :
    fp.take (w'.bufSize u) = fp.take (w.bufSize u) ∧
      fp.drop (w'.bufSize u) = fp.drop (w.bufSize u) := by
  have hsame : max (w'.bufSize u) maxDataLength =
      max (w.bufSize u) maxDataLength →
      fp.take (w'.bufSize u) = fp.take (w.bufSize u) ∧
        fp.drop (w'.bufSize u) = fp.drop (w.bufSize u) := by
    intro hmax
    rw [Nat.max_eq_left hroom, Nat.max_eq_left hroom'] at hmax
    rw [hmax]
    exact ⟨rfl, rfl⟩
  by_cases hu : u = v
  · subst hu
    rcases h.pieces with hmax | ⟨_, hpic⟩
    · exact hsame hmax
    · have hlength := hpic s hs fp hfp
      rw [List.take_of_length_le (Nat.le_trans hlength hroom'),
        List.take_of_length_le (Nat.le_trans hlength hroom),
        List.drop_of_length_le (Nat.le_trans hlength hroom'),
        List.drop_of_length_le (Nat.le_trans hlength hroom)]
      exact ⟨rfl, rfl⟩
  · exact hsame (h.sizes u hu)

theorem downloadImageInfo (h : Renewed env v loose w w') (u : SessionId)
    (info : AdPicturesInfo) :
    Option.Rel (Lockstep.Same (Renewed env v loose))
      (downloadImageInfo env u info w) (downloadImageInfo env u info w') := by
  unfold ChessServer.downloadImageInfo
  exact h.messageReply u _ _

/-- The next piece of a picture is the same. -/
theorem sendImageContent (h : Renewed env v loose w w') (u : SessionId) :
    Option.Rel (Lockstep.Same (Renewed env v loose)) (sendImageContent env u w)
      (sendImageContent env u w') := by
  have h := h.getBuffer u maxDataLength
  have hroom := getBuffer_capacity u maxDataLength w
  have hroom' := getBuffer_capacity u maxDataLength w'
  unfold ChessServer.sendImageContent
  refine Lockstep.bind (h.user u) fun s s' hm => ?_
  have hs := hm.left
  obtain ⟨locate, rfl⟩ := hm.differ
  dsimp only
  split
  · exact .some ⟨rfl, h⟩
  · rename_i fp hfp
    obtain ⟨htake, hdrop⟩ := h.piece hroom hroom' hs hfp
    rw [htake, hdrop]
    have hclose : ∀ {w w'}, Renewed env v loose w w' →
        Option.Rel (Renewed env v loose)
          (w.modifyUser u fun s => { s with adImgFp := none })
          (w'.modifyUser u fun s => { s with adImgFp := none }) :=
      fun h => h.setPicture u none fun _ _ _ _ file hfile => by cases hfile
    refine Lockstep.ite (fun _ => ?_) fun _ => ?_
    · refine Lockstep.bind (h.setPicture u _ fun _ t ht hsmall file hfile => ?_)
        fun w₁ w₁' h₁ => ?_
      · rw [hs, Option.some.injEq] at ht
        rw [Option.some.injEq] at hfile
        subst ht hfile
        have hlength := hsmall fp hfp
        rw [List.length_drop]
        omega
      · refine Lockstep.value (h₁.messageReply u _ _) fun ret w₂ w₂' h₂ => ?_
        refine Lockstep.ite (fun _ => .some ⟨rfl, h₂⟩) fun _ => ?_
        refine Lockstep.bind (hclose h₂) fun w₃ w₃' h₃ => ?_
        exact .some ⟨rfl, h₃⟩
    · refine Lockstep.bind (hclose h) fun w₁ w₁' h₁ => ?_
      refine Lockstep.value (h₁.messageReply u _ _) fun _ w₂ w₂' h₂ => ?_
      exact .some ⟨rfl, h₂⟩

/-- The same file is opened. -/
theorem openImage (h : Renewed env v loose w w') (u : SessionId)
    (imageId : UInt32) :
    Option.Rel (Renewed env v loose) (openImage env u imageId w)
      (openImage env u imageId w') := by
  unfold ChessServer.openImage
  refine Lockstep.bind (h.user u) fun s s' hm => ?_
  obtain ⟨locate, rfl⟩ := hm.differ
  refine Lockstep.ite (fun _ => ?_) fun _ => .some h
  refine Lockstep.read rfl fun thread _ => ?_
  obtain ⟨hfound, hinfo, hquery⟩ := h.getAdPicturesInfoFromDB imageId {}
  dsimp only
  rw [hfound, hinfo]
  refine Lockstep.ite (fun _ => ?_) fun _ => .some hquery
  exact hquery.setPicture u _ fun hsmall _ _ _ file hfile =>
    hsmall _ file hfile

theorem adPictureReply (h : Renewed env v loose w w') (u : SessionId)
    (item : AdPictureReq) :
    Option.Rel (Lockstep.Same (Renewed env v loose))
      (adPictureReply env u item w) (adPictureReply env u item w') := by
  unfold ChessServer.adPictureReply
  refine Lockstep.ite (fun _ => ?_) fun _ => ?_
  · refine Lockstep.bind (h.user u) fun s s' hm => ?_
    obtain ⟨locate, rfl⟩ := hm.differ
    refine Lockstep.read rfl fun thread _ => ?_
    obtain ⟨_, hinfo, hquery⟩ := h.getAdPicturesInfoFromDB item.imageId {}
    dsimp only
    rw [hinfo]
    refine Lockstep.value (hquery.downloadImageInfo u _) fun _ w₁ w₁' h₁ => ?_
    exact .some ⟨rfl, h₁⟩
  · refine Lockstep.ite (fun _ => ?_) fun _ => .some ⟨rfl, h⟩
    refine Lockstep.bind (h.openImage u item.imageId) fun w₁ w₁' h₁ => ?_
    exact h₁.sendImageContent u

/-- Whether the picture is through is the same in both runs. -/
theorem adPictureItemHandle (h : Renewed env v loose w w') (u : SessionId)
    (msg : Bytes) :
    Option.Rel (Lockstep.Same (Renewed env v loose))
      (adPictureItemHandle env u msg w) (adPictureItemHandle env u msg w') := by
  unfold ChessServer.adPictureItemHandle
  split
  · exact .some ⟨rfl, h⟩
  · refine Lockstep.value (h.adPictureReply u _) fun ret w₁ w₁' h₁ => ?_
    refine Lockstep.bind (h₁.user u) fun s s' hm => ?_
    obtain ⟨locate, rfl⟩ := hm.differ
    refine Lockstep.bind (Lockstep.ite (fun _ => h₁.setNextState u .gameReady)
      fun _ => .some h₁) fun w₂ w₂' h₂ => ?_
    exact .some ⟨rfl, h₂⟩

/-- A message during the download. -/
theorem stateAdPictureDownloadMsgHandle (h : Renewed env v loose w w')
    (u : SessionId) (msgType : UInt32) (msg : Bytes) :
    Option.Rel (Lockstep.Same (Renewed env v loose))
      (stateAdPictureDownloadMsgHandle env u msgType msg w)
      (stateAdPictureDownloadMsgHandle env u msgType msg w') := by
  unfold ChessServer.stateAdPictureDownloadMsgHandle
  split
  · exact h.adPictureItemHandle u msg
  · exact h.echoMsgHandle u msg
  · exact .some ⟨rfl, h⟩


/-! ## Taking a seat -/

/-- The chair that somebody took is not given to anybody else. -/
theorem addUser_seat {board : ChessBoard} {user x : SessionId}
    {locate : Location} {seat : Seat}
    (hseat : (board.addUser user locate).2.seat seat = some x)
    (hx : x ≠ user) : board.seat seat = some x := by
  unfold ChessBoard.addUser at hseat
  split at hseat
  · exact hseat
  · split at hseat
    · rename_i free _
      split at hseat
      · have hset : (board.setSeat free (some user)).seat seat = some x := by
          cases seat <;> exact hseat
        rw [setSeat_seat] at hset
        by_cases hfree : seat = free
        · rw [hfree, Function.update_self, Option.some.injEq] at hset
          exact absurd hset.symm hx
        · rwa [Function.update_of_ne hfree] at hset
      · exact hseat
    · exact hseat

/-- Where both runs have agreed on `locate`, they are not loose any more. -/
theorem firm (h : Renewed env v loose w w') (heq : w'.users v = w.users v) :
    Renewed env v False w w' where
  rest := h.rest
  others := h.others
  session := Or.inl heq
  unseated := False.elim
  standing := False.elim
  sizes := h.sizes
  pieces := h.pieces

/-- A session that asks for a chair has the same `locate` in both runs. -/
theorem seek (h : Renewed env v loose w w') (u : SessionId)
    (locate : Location) : ∃ loose', Firm v loose' u ∧
      Option.Rel (Renewed env v loose')
        (w.modifyUser u fun s => { s with locate := locate })
        (w'.modifyUser u fun s => { s with locate := locate }) := by
  by_cases hu : u = v
  · subst hu
    refine ⟨False, False.elim, ?_⟩
    unfold World.modifyUser
    refine Lockstep.map (h.user u) fun s s' hm => ?_
    obtain ⟨old, rfl⟩ := hm.differ
    refine (h.write (fun hu => absurd rfl hu) (fun _ => Or.inl rfl)
      (fun _ _ hstand t ht => ?_) fun _ _ hpic t ht => ?_).firm ?_
    · cases ht
      exact hstand s hm.left
    · cases ht
      exact hpic s hm.left
    · show Function.update w'.users u _ u = Function.update w.users u _ u
      rw [Function.update_self, Function.update_self]
  · refine ⟨loose, fun _ => hu, ?_⟩
    unfold World.modifyUser
    rw [h.others u hu]
    cases hs : w.users u with
    | none => exact .none
    | some s => exact .some (h.write (fun _ => rfl) (fun huv => absurd huv hu)
        (fun huv => absurd huv hu) fun huv => absurd huv hu)

/-- A chair is taken in both runs or in neither, and the session is firm from
then on. -/
theorem joinBoard (h : Renewed env v loose w w') (chessBoard : BoardPtr)
    (u : SessionId) (locate : Location) : ∃ loose', Firm v loose' u ∧
      Option.Rel (Lockstep.Same (Renewed env v loose'))
        (joinBoard chessBoard u locate w)
        (joinBoard chessBoard u locate w') := by
  obtain ⟨loose', hfirm, hseek⟩ := h.seek u locate
  refine ⟨loose', hfirm, ?_⟩
  unfold ChessServer.joinBoard
  refine Lockstep.bind hseek fun w₁ w₁' h₁ => ?_
  refine Lockstep.read (h₁.gameBegan chessBoard) fun began _ => ?_
  refine Lockstep.ite (fun _ => .some ⟨rfl, h₁⟩) fun _ => ?_
  dsimp only
  rw [h₁.boards]
  refine Lockstep.ite (fun _ => .some ⟨rfl, ?_⟩) fun _ => .some ⟨rfl, h₁⟩
  exact h₁.modifyBoard chessBoard
    (f := fun _ => ((w₁.boards chessBoard).addUser u locate).2)
    fun hloose _ hseat => addUser_seat hseat fun huv => hfirm hloose huv.symm

/-- A firm session is given a board. -/
theorem enter (h : Renewed env v loose w w') (hfirm : Firm v loose u)
    (b : BoardPtr) :
    Option.Rel (Renewed env v loose)
      (w.modifyUser u fun s => { s with currChessBoard := some b })
      (w'.modifyUser u fun s => { s with currChessBoard := some b }) := by
  unfold World.modifyUser
  rw [h.equal hfirm]
  cases hs : w.users u with
  | none => exact .none
  | some s =>
      refine .some (h.write (fun _ => rfl) (fun _ => Or.inl rfl)
        (fun huv hloose => absurd huv (hfirm hloose)) fun _ _ hpic t ht => ?_)
      cases ht
      exact hpic s hs

/-- The session is told alike who else is there. -/
theorem joinAccepted (h : Renewed env v loose w w') (chessBoard : BoardPtr)
    (hfirm : Firm v loose u) (locate : Location) :
    Option.Rel (Lockstep.Same (Renewed env v loose))
      (joinAccepted chessBoard u locate w)
      (joinAccepted chessBoard u locate w') := by
  unfold ChessServer.joinAccepted
  refine Lockstep.bind (h.mark u .ready) fun w₁ w₁' h₁ => ?_
  refine Lockstep.bind (h₁.enter hfirm chessBoard) fun w₂ w₂' h₂ => ?_
  dsimp only
  have h₃ : Renewed env v loose
      (if (w₂.boards chessBoard).currUserNum = 1 then
        w₂.modifyBoard chessBoard fun board =>
          { board with firstComeUserLocate := locate }
        else w₂)
      (if (w₂'.boards chessBoard).currUserNum = 1 then
        w₂'.modifyBoard chessBoard fun board =>
          { board with firstComeUserLocate := locate }
        else w₂') := by
    rw [h₂.boards]
    split
    · exact h₂.note chessBoard fun board => firstCome_seat board locate
    · exact h₂
  rw [h₃.boards]
  refine Lockstep.read (h₃.wrapChessBoardInfo chessBoard) fun info _ => ?_
  refine Lockstep.bind (h₃.setNextState u .gamePlay) fun w₄ w₄' h₄ => ?_
  exact .some ⟨rfl, h₄⟩

end Renewed

/-! ## Messages -/

/-- The two runs differ at most in what a reused session keeps. -/
def Twins (env : Env) (v : SessionId) (w w' : World) : Prop :=
  ∃ loose, Renewed env v loose w w'

/-- Handlers that seat nobody leave the runs as loose as they were. -/
theorem Renewed.twins {ι : Type} {x y : Option (ι × World)}
    (h : Option.Rel (Lockstep.Same (Renewed env v loose)) x y) :
    Option.Rel (Lockstep.Same (Twins env v)) x y :=
  Lockstep.mono h fun _ _ h => ⟨h.1, loose, h.2⟩

namespace Twins

/-- This is the handler after which the runs may be less loose. -/
theorem gameRequestHandle (h : Twins env v w w') (u : SessionId)
    (msg : Bytes) :
    Option.Rel (Lockstep.Same (Twins env v)) (gameRequestHandle env u msg w)
      (gameRequestHandle env u msg w') := by
  obtain ⟨loose, h⟩ := h
  unfold ChessServer.gameRequestHandle
  split
  · exact .some ⟨rfl, loose, h⟩
  · rename_i m _
    split
    · exact .some ⟨rfl, loose, h⟩
    · rename_i hall _
      obtain ⟨hboard, h⟩ := h.getChessBoardByID hall m.chessBoardId.toUInt32
      dsimp only
      rw [hboard]
      refine Lockstep.read rfl fun chessBoard _ => ?_
      obtain ⟨loose', hfirm, hjoin⟩ := h.joinBoard chessBoard u m.locate.toUInt32
      refine Renewed.twins
        (?_ : Option.Rel (Lockstep.Same (Renewed env v loose')) _ _)
      refine Lockstep.value hjoin fun addedOk w₁ w₁' h₁ => ?_
      refine Lockstep.ite (fun _ => ?_) fun _ => ?_
      · refine Lockstep.value (h₁.joinAccepted chessBoard hfirm _)
          fun reply w₂ w₂' h₂ => ?_
        refine Lockstep.value (h₂.messageReply u _ _) fun _ w₃ w₃' h₃ => ?_
        refine Lockstep.bind (h₃.broadCastMsg chessBoard _ _ _)
          fun w₄ w₄' h₄ => ?_
        refine Lockstep.bind (h₄.broadCastHallInfo chessBoard u)
          fun w₅ w₅' h₅ => ?_
        exact .some ⟨rfl, h₅⟩
      · dsimp only
        rw [h₁.boards]
        refine Lockstep.value (h₁.messageReply u _ _) fun _ w₂ w₂' h₂ => ?_
        exact .some ⟨rfl, h₂⟩

/-- A message in the hall. -/
theorem stateGameReadyMsgHandle (h : Twins env v w w') (u : SessionId)
    (msgType : UInt32) (msg : Bytes) :
    Option.Rel (Lockstep.Same (Twins env v))
      (stateGameReadyMsgHandle env u msgType msg w)
      (stateGameReadyMsgHandle env u msgType msg w') := by
  obtain ⟨loose, hl⟩ := h
  unfold ChessServer.stateGameReadyMsgHandle
  split
  · exact Renewed.twins (hl.gameHallSumaryHandle u)
  · exact Renewed.twins (hl.hallInfoReqHandle u msg)
  · exact gameRequestHandle ⟨loose, hl⟩ u msg
  · exact Renewed.twins (hl.echoMsgHandle u msg)
  · exact Renewed.twins (hl.updateUserInfos u msg)
  · exact .some ⟨rfl, loose, hl⟩

end Twins

namespace Renewed

theorem chessBoardReq (h : Renewed env v loose w w') (u : SessionId)
    (msg : Bytes) :
    Option.Rel (Lockstep.Same (Renewed env v loose))
      (chessBoardReq env u msg w) (chessBoardReq env u msg w') := by
  unfold ChessServer.chessBoardReq
  split
  · exact .some ⟨rfl, h⟩
  · refine Lockstep.bind (h.user u) fun s s' hm => ?_
    obtain ⟨locate, rfl⟩ := hm.differ
    refine Lockstep.read rfl fun board _ => ?_
    refine Lockstep.read (h.wrapChessBoardInfo board) fun info _ => ?_
    refine Lockstep.value (h.messageReply u _ _) fun _ w₁ w₁' h₁ => ?_
    exact .some ⟨rfl, h₁⟩

theorem stateGamePlaySwitch (h : Renewed env v loose w w') (u : SessionId)
    (msgType : UInt32) (msg : Bytes) :
    Option.Rel (Lockstep.Same (Renewed env v loose))
      (stateGamePlaySwitch env u msgType msg w)
      (stateGamePlaySwitch env u msgType msg w') := by
  unfold ChessServer.stateGamePlaySwitch
  split
  · exact h.gameHallSumaryHandle u
  · exact h.hallInfoReqHandle u msg
  · exact h.echoMsgHandle u msg
  · exact h.chessBoardReq u msg
  · exact h.updateUserInfos u msg
  · refine Lockstep.ite (fun _ => ?_) fun _ => .some ⟨rfl, h⟩
    refine Lockstep.bind (h.user u) fun s s' hm => ?_
    obtain ⟨locate, rfl⟩ := hm.differ
    dsimp only
    split
    · exact h.translateMsg _ msgType msg
    · exact h.translateMsgNull msgType msg
  · exact .some ⟨rfl, h⟩

/-- A message in the game. -/
theorem stateGamePlayMsgHandle (h : Renewed env v loose w w') (u : SessionId)
    (msgType : UInt32) (msg : Bytes) :
    Option.Rel (Lockstep.Same (Renewed env v loose))
      (stateGamePlayMsgHandle env u msgType msg w)
      (stateGamePlayMsgHandle env u msgType msg w') := by
  unfold ChessServer.stateGamePlayMsgHandle
  refine Lockstep.value (h.stateGamePlaySwitch u msgType msg)
    fun ret w₁ w₁' h₁ => ?_
  refine Lockstep.ite (fun _ => .some ⟨rfl, h₁⟩) fun _ => ?_
  refine Lockstep.bind (h₁.setNextState u .gameReady) fun w₂ w₂' h₂ => ?_
  refine Lockstep.bind (h₂.mark u .notStart) fun w₃ w₃' h₃ => ?_
  exact .some ⟨rfl, h₃⟩

end Renewed

namespace Twins

/-- A message to a state object. -/
theorem msgHandle (h : Twins env v w w') (state : StateType) (u : SessionId)
    (msgType : UInt32) (msg : Bytes) :
    Option.Rel (Lockstep.Same (Twins env v))
      (state.msgHandle env u msgType msg w)
      (state.msgHandle env u msgType msg w') := by
  obtain ⟨loose, hl⟩ := h
  unfold StateType.msgHandle
  cases state with
  | auth => exact Renewed.twins (hl.stateAuthMsgHandle u msgType msg)
  | downAd => exact Renewed.twins (hl.stateAdPictureDownloadMsgHandle u msgType msg)
  | gameReady => exact stateGameReadyMsgHandle ⟨loose, hl⟩ u msgType msg
  | gamePlay => exact Renewed.twins (hl.stateGamePlayMsgHandle u msgType msg)

/-- `sessionMessageHandle` where the session has a state object. -/
theorem objectHandle (h : Twins env v w w') {s s' : UserSession}
    {state : StateType} (hm : Renewed.Met u w w' s s')
    (hstate : s.stateMachine = some state) (msgType : UInt32) (msg : Bytes) :
    Option.Rel (Lockstep.Same (Twins env v))
      (sessionMessageHandle env u msgType msg w)
      (sessionMessageHandle env u msgType msg w') := by
  unfold ChessServer.sessionMessageHandle
  rw [hm.left, hm.right]
  obtain ⟨locate, rfl⟩ := hm.differ
  simp only [Option.bind_eq_bind, Option.bind_some, hstate]
  refine Lockstep.value (h.msgHandle state u msgType msg)
    fun ret w₁ w₁' h₁ => ?_
  obtain ⟨loose, h₁⟩ := h₁
  refine Lockstep.ite (fun _ => ?_) fun _ => .some ⟨rfl, loose, h₁⟩
  refine Lockstep.bind (h₁.user u) fun s₁ s₁' hm₁ => ?_
  have hswitch : ∀ next, Renewed env v loose
      (w₁.setUser u { s₁ with stateMachine := some next })
      (w₁'.setUser u { s₁' with stateMachine := some next }) := fun next =>
    h₁.setUser hm₁ (fun s => { s with stateMachine := some next })
      (Renewed.inert_of (fun _ _ => rfl) (fun _ => rfl) fun _ => rfl)
  obtain ⟨locate, rfl⟩ := hm₁.differ
  dsimp only
  split
  · rename_i next state _ _
    exact Lockstep.ite (fun _ => .some ⟨rfl, loose, hswitch next⟩)
      fun _ => .some ⟨rfl, loose, h₁⟩
  · exact .some ⟨rfl, loose, h₁⟩

/-- A message to a session. -/
theorem sessionMessageHandle (h : Twins env v w w') (u : SessionId)
    (msgType : UInt32) (msg : Bytes) :
    Option.Rel (Lockstep.Same (Twins env v))
      (sessionMessageHandle env u msgType msg w)
      (sessionMessageHandle env u msgType msg w') := by
  obtain ⟨loose, hl⟩ := h
  have hu := hl.user u
  generalize hs : w.users u = x at hu
  generalize hs' : w'.users u = x' at hu
  cases hu with
  | none =>
      unfold ChessServer.sessionMessageHandle
      rw [hs, hs']
      exact .none
  | some hm =>
      rename_i s s'
      cases hstate : s.stateMachine with
      | some state => exact objectHandle ⟨loose, hl⟩ hm hstate msgType msg
      | none =>
          have hstate' : s'.stateMachine = none := by
            obtain ⟨locate, rfl⟩ := hm.differ
            exact hstate
          rw [sessionMessageHandle_first hs hstate,
            sessionMessageHandle_first hs' hstate']
          refine objectHandle ⟨loose, hl.setUser hm UserSession.started
            (Renewed.inert_of (fun _ _ => rfl) (fun _ => rfl) fun _ => rfl)⟩
            ⟨setUser_users_self _ _ _, setUser_users_self _ _ _, ?_⟩ rfl
            msgType msg
          obtain ⟨locate, rfl⟩ := hm.differ
          exact ⟨locate, rfl⟩

end Twins

end ChessServer
