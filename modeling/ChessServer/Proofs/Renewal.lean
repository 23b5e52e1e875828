import ChessServer.Lib.Lockstep
import ChessServer.Proofs.Notify
import ChessServer.Proofs.Join

/-!
# A new object in the place of an old one

`Renewed` relates two runs of the server that differ in one session: one run
goes on with an object that served a connection before, the other with a new
one.  Reading, assigning and replying keep the runs together.
-/

namespace ChessServer

/-- All that is not a session or its buffer. -/
def World.rest (w : World) : World :=
  { w with users := fun _ => none, bufSize := fun _ => 0 }

/-- No picture that `fopen` opens is longer than a new buffer. -/
def Env.SmallPictures (env : Env) : Prop :=
  ∀ path file, env.fopen path = some file → file.length ≤ maxDataLength

/-- The session's picture is not longer than a new buffer. -/
def UserSession.SmallPicture (s : UserSession) : Prop :=
  ∀ fp, s.adImgFp = some fp → fp.length ≤ maxDataLength

/-- Two runs that differ in a session `v`: in the size of its buffer, and, as
long as they are `loose`, in its `locate`, which no board has then. -/
structure Renewed (env : Env) (v : SessionId) (loose : Prop) (w w' : World) :
    Prop where
  rest : w'.rest = w.rest
  others : ∀ u, u ≠ v → w'.users u = w.users u
  session : w'.users v = w.users v ∨ loose ∧ ∃ s locate,
    w.users v = some s ∧ w'.users v = some { s with locate := locate }
  unseated : loose → ∀ b seat, (w.boards b).seat seat ≠ some v
  standing : loose → ∀ s, w.users v = some s → s.currChessBoard = none
  sizes : ∀ u, u ≠ v →
    max (w'.bufSize u) maxDataLength = max (w.bufSize u) maxDataLength
  pieces : max (w'.bufSize v) maxDataLength = max (w.bufSize v) maxDataLength ∨
    env.SmallPictures ∧ ∀ s, w.users v = some s → s.SmallPicture

variable {env : Env} {u v : SessionId} {loose : Prop} {w w' : World}

namespace Renewed

/-- The boards, the halls and the rest are the same in both runs. -/
theorem boards (h : Renewed env v loose w w') : w'.boards = w.boards :=
  (congrArg World.boards h.rest :)

theorem halls (h : Renewed env v loose w w') : w'.halls = w.halls :=
  (congrArg World.halls h.rest :)

theorem fdSessionMap (h : Renewed env v loose w w') :
    w'.fdSessionMap = w.fdSessionMap :=
  (congrArg World.fdSessionMap h.rest :)

theorem sessionList (h : Renewed env v loose w w') :
    w'.sessionList = w.sessionList :=
  (congrArg World.sessionList h.rest :)

theorem nextUser (h : Renewed env v loose w w') : w'.nextUser = w.nextUser :=
  (congrArg World.nextUser h.rest :)

theorem sqlLog (h : Renewed env v loose w w') : w'.sqlLog = w.sqlLog :=
  (congrArg World.sqlLog h.rest :)

/-! ## Sessions -/

/-- What the two runs find at an address. -/
structure Met (u : SessionId) (w w' : World) (s s' : UserSession) : Prop where
  left : w.users u = some s
  right : w'.users u = some s'
  differ : ∃ locate, s' = { s with locate := locate }

/-- A session is there in both runs or in none. -/
theorem user (h : Renewed env v loose w w') (u : SessionId) :
    Option.Rel (Met u w w') (w.users u) (w'.users u) := by
  have hequal : w'.users u = w.users u →
      Option.Rel (Met u w w') (w.users u) (w'.users u) := by
    intro heq
    cases hs : w.users u with
    | none =>
        rw [heq, hs]
        exact .none
    | some s =>
        rw [heq, hs]
        exact .some ⟨hs, heq.trans hs, s.locate, rfl⟩
  by_cases hu : u = v
  · subst hu
    rcases h.session with heq | ⟨_, s, locate, hs, hs'⟩
    · exact hequal heq
    · rw [hs, hs']
      exact .some ⟨hs, hs', locate, rfl⟩
  · exact hequal (h.others u hu)

/-- Whatever is read of a session, but for `locate`, is the same. -/
theorem look (h : Renewed env v loose w w') (u : SessionId) {ι : Type}
    (f : UserSession → ι)
    (hf : ∀ s locate, f { s with locate := locate } = f s) :
    (w'.users u).map f = (w.users u).map f := by
  have hu := h.user u
  generalize w.users u = x at hu
  generalize w'.users u = x' at hu
  cases hu with
  | none => rfl
  | some hm =>
      obtain ⟨locate, rfl⟩ := hm.differ
      exact congrArg some (hf _ locate)

/-- A session for which the runs agree about `locate` as well. -/
def Firm (v : SessionId) (loose : Prop) (u : SessionId) : Prop :=
  loose → u ≠ v

theorem equal (h : Renewed env v loose w w') (hu : Firm v loose u) :
    w'.users u = w.users u := by
  by_cases hv : u = v
  · subst hv
    rcases h.session with heq | ⟨hloose, _⟩
    · exact heq
    · exact absurd rfl (hu hloose)
  · exact h.others u hv

/-- Whoever has a chair. -/
theorem seated (h : Renewed env v loose w w') {b : BoardPtr} {seat : Seat}
    (hseat : (w.boards b).seat seat = some u) : Firm v loose u := by
  rintro hloose rfl
  exact h.unseated hloose b seat hseat

/-- What is found at a location has a chair. -/
theorem found (h : Renewed env v loose w w') {b : BoardPtr}
    {locate : Location}
    (hfound : (w.boards b).getUserByLocation locate = some u) :
    Firm v loose u := by
  unfold ChessBoard.getUserByLocation at hfound
  split at hfound
  · exact h.seated (show (w.boards b).seat .left = some u from hfound)
  · exact h.seated (show (w.boards b).seat .right = some u from hfound)
  · exact h.seated (show (w.boards b).seat .bottom = some u from hfound)
  · cases hfound

/-- Whoever has a board. -/
theorem boarded (h : Renewed env v loose w w') {s : UserSession}
    (hs : w.users u = some s) (hboard : s.currChessBoard ≠ none) :
    Firm v loose u := by
  rintro hloose rfl
  exact hboard (h.standing hloose s hs)

/-- An assignment that neither reads nor writes `locate`, gives no board and
opens no picture. -/
structure Inert (f : UserSession → UserSession) : Prop where
  locate : ∀ s locate, f { s with locate := locate } =
    { f s with locate := locate }
  board : ∀ s, s.currChessBoard = none → (f s).currChessBoard = none
  picture : ∀ s, s.SmallPicture → (f s).SmallPicture

/-- Most assignments leave the board and the picture alone. -/
theorem inert_of {f : UserSession → UserSession}
    (hlocate : ∀ s locate, f { s with locate := locate } =
      { f s with locate := locate })
    (hboard : ∀ s, (f s).currChessBoard = s.currChessBoard)
    (hpicture : ∀ s, (f s).adImgFp = s.adImgFp) : Inert f where
  locate := hlocate
  board := by
    intro s hnone
    rw [hboard, hnone]
  picture := by
    intro s hsmall fp hfp
    rw [hpicture] at hfp
    exact hsmall fp hfp

/-- The object at an address is replaced in both runs. -/
theorem write (h : Renewed env v loose w w') {t r : Option UserSession}
    (hothers : u ≠ v → r = t)
    (hsession : u = v → r = t ∨ loose ∧ ∃ s locate,
      t = some s ∧ r = some { s with locate := locate })
    (hstanding : u = v → loose →
      (∀ s, w.users u = some s → s.currChessBoard = none) →
      ∀ s, t = some s → s.currChessBoard = none)
    (hpicture : u = v → env.SmallPictures →
      (∀ s, w.users u = some s → s.SmallPicture) →
      ∀ s, t = some s → s.SmallPicture) :
    Renewed env v loose { w with users := Function.update w.users u t }
      { w' with users := Function.update w'.users u r } where
  rest := h.rest
  others := by
    intro x hx
    show Function.update w'.users u r x = Function.update w.users u t x
    by_cases hxu : x = u
    · subst hxu
      rw [Function.update_self, Function.update_self, hothers hx]
    · rw [Function.update_of_ne hxu, Function.update_of_ne hxu, h.others x hx]
  session := by
    show Function.update w'.users u r v = Function.update w.users u t v ∨
      loose ∧ ∃ s locate, Function.update w.users u t v = some s ∧
        Function.update w'.users u r v = some { s with locate := locate }
    by_cases huv : v = u
    · subst huv
      rw [Function.update_self, Function.update_self]
      exact hsession rfl
    · rw [Function.update_of_ne huv, Function.update_of_ne huv]
      exact h.session
  unseated := h.unseated
  standing := by
    intro hloose s hs
    have hs : Function.update w.users u t v = some s := hs
    by_cases huv : v = u
    · subst huv
      rw [Function.update_self] at hs
      exact hstanding rfl hloose (h.standing hloose) s hs
    · rw [Function.update_of_ne huv] at hs
      exact h.standing hloose s hs
  sizes := h.sizes
  pieces := by
    rcases h.pieces with hsame | ⟨hsmall, hpic⟩
    · exact Or.inl hsame
    · refine Or.inr ⟨hsmall, fun s hs => ?_⟩
      have hs : Function.update w.users u t v = some s := hs
      by_cases huv : v = u
      · subst huv
        rw [Function.update_self] at hs
        exact hpicture rfl hsmall hpic s hs
      · rw [Function.update_of_ne huv] at hs
        exact hpic s hs

/-- The same assignment in both runs, to a session that may have a picture. -/
theorem assign (h : Renewed env v loose w w') {s s' : UserSession}
    (hm : Met u w w' s s') {f : UserSession → UserSession}
    (hlocate : ∀ s locate, f { s with locate := locate } =
      { f s with locate := locate })
    (hboard : ∀ s, s.currChessBoard = none → (f s).currChessBoard = none)
    (hpicture : env.SmallPictures → s.SmallPicture → (f s).SmallPicture) :
    Renewed env v loose (w.setUser u (f s)) (w'.setUser u (f s')) := by
  refine h.write (fun hu => ?_) (fun hu => ?_) (fun _ _ hstand t ht => ?_)
    fun _ hsmall hpic t ht => ?_
  · have heq := h.others u hu
    rw [hm.left, hm.right, Option.some.injEq] at heq
    rw [heq]
  · subst hu
    rcases h.session with heq | ⟨hloose, t, locate, ht, ht'⟩
    · rw [hm.left, hm.right, Option.some.injEq] at heq
      exact Or.inl (by rw [heq])
    · rw [hm.left, Option.some.injEq] at ht
      rw [hm.right, Option.some.injEq] at ht'
      subst ht ht'
      exact Or.inr ⟨hloose, f s, locate, rfl, by rw [hlocate]⟩
  · cases ht
    exact hboard s (hstand s hm.left)
  · cases ht
    exact hpicture hsmall (hpic s hm.left)

/-- The same assignment in both runs. -/
theorem setUser (h : Renewed env v loose w w') {s s' : UserSession}
    (hm : Met u w w' s s') (f : UserSession → UserSession) (hf : Inert f) :
    Renewed env v loose (w.setUser u (f s)) (w'.setUser u (f s')) :=
  h.assign hm hf.locate hf.board fun _ => hf.picture s

/-- What the runs find after the assignment. -/
theorem Met.setUser {s s' : UserSession} (hm : Met u w w' s s')
    {f : UserSession → UserSession} (hf : Inert f) :
    Met u (w.setUser u (f s)) (w'.setUser u (f s')) (f s) (f s') where
  left := setUser_users_self _ _ _
  right := setUser_users_self _ _ _
  differ := by
    obtain ⟨locate, rfl⟩ := hm.differ
    exact ⟨locate, hf.locate s locate⟩

/-- An assignment through the address of a session. -/
theorem modifyUser (h : Renewed env v loose w w') (u : SessionId)
    {f : UserSession → UserSession} (hf : Inert f) :
    Option.Rel (Renewed env v loose) (w.modifyUser u f)
      (w'.modifyUser u f) := by
  unfold World.modifyUser
  exact Lockstep.map (h.user u) fun s s' hm => h.setUser hm f hf

/-- A board is changed in both runs; it gives `v` no chair. -/
theorem modifyBoard (h : Renewed env v loose w w') (b : BoardPtr)
    {f : ChessBoard → ChessBoard}
    (hf : loose → ∀ seat, (f (w.boards b)).seat seat = some v →
      (w.boards b).seat seat = some v) :
    Renewed env v loose (w.modifyBoard b f) (w'.modifyBoard b f) where
  rest := (congrArg (fun r : World =>
    { r with boards := Function.update r.boards b (f (r.boards b)) }) h.rest :)
  others := h.others
  session := h.session
  unseated := by
    intro hloose b' seat hseat
    have hseat : (Function.update w.boards b (f (w.boards b)) b').seat seat =
      some v := hseat
    by_cases hb : b' = b
    · subst hb
      rw [Function.update_self] at hseat
      exact h.unseated hloose b' seat (hf hloose seat hseat)
    · rw [Function.update_of_ne hb] at hseat
      exact h.unseated hloose b' seat hseat
  standing := h.standing
  sizes := h.sizes
  pieces := h.pieces

/-- A change that is none of the chairs. -/
theorem note (h : Renewed env v loose w w') (b : BoardPtr)
    {f : ChessBoard → ChessBoard} (hf : ∀ board, (f board).seat = board.seat) :
    Renewed env v loose (w.modifyBoard b f) (w'.modifyBoard b f) :=
  h.modifyBoard b fun _ seat hseat => by rwa [hf] at hseat

/-! ## Replies -/

/-- What `GetBuffer` makes of the size of a buffer that holds a header. -/
theorem max_getBuffer (x u : SessionId) (size : Nat) (w : World) :
    max ((w.getBuffer u size).bufSize x) maxDataLength =
      if x = u then max (max (w.bufSize u) maxDataLength) size
      else max (w.bufSize x) maxDataLength := by
  by_cases hx : x = u
  · subst hx
    rw [if_pos rfl]
    unfold World.getBuffer
    split
    · rename_i hfresh
      show max (Function.update w.bufSize x _ x) _ = _
      rw [Function.update_self]
      omega
    · split
      · show max (Function.update w.bufSize x _ x) _ = _
        rw [Function.update_self]
        omega
      · omega
  · rw [if_neg hx]
    unfold World.getBuffer
    split
    · show max (Function.update w.bufSize u _ x) _ = _
      rw [Function.update_of_ne hx]
    · split
      · show max (Function.update w.bufSize u _ x) _ = _
        rw [Function.update_of_ne hx]
      · rfl

/-- The buffer is not part of what is compared. -/
theorem getBuffer_rest (u : SessionId) (size : Nat) (w : World) :
    (w.getBuffer u size).rest = w.rest := by
  unfold World.getBuffer
  split
  · rfl
  · split
    · rfl
    · rfl

/-- Buffers grow alike: past the length of the longest frame their sizes
agree, if they did before. -/
theorem getBuffer (h : Renewed env v loose w w') (u : SessionId)
    (size : Nat) :
    Renewed env v loose (w.getBuffer u size) (w'.getBuffer u size) where
  rest := by rw [getBuffer_rest, getBuffer_rest, h.rest]
  others := by
    rw [(getBuffer_notified u size w).users, (getBuffer_notified u size w').users]
    exact h.others
  session := by
    rw [(getBuffer_notified u size w).users, (getBuffer_notified u size w').users]
    exact h.session
  unseated := by
    rw [(getBuffer_notified u size w).boards]
    exact h.unseated
  standing := by
    rw [(getBuffer_notified u size w).users]
    exact h.standing
  sizes := by
    intro x hx
    rw [max_getBuffer, max_getBuffer, h.sizes x hx]
    split
    · rename_i hxu
      subst hxu
      rw [h.sizes x hx]
    · rfl
  pieces := by
    rw [max_getBuffer, max_getBuffer, (getBuffer_notified u size w).users]
    rcases h.pieces with hsame | hsmall
    · left
      rw [hsame]
      split
      · rename_i hvu
        rw [← hvu, hsame]
      · rfl
    · exact Or.inr hsmall

theorem Met.getBuffer {s s' : UserSession} (hm : Met u w w' s s')
    (size : Nat) :
    Met u (w.getBuffer u size) (w'.getBuffer u size) s s' where
  left := by rw [(getBuffer_notified u size w).users, hm.left]
  right := by rw [(getBuffer_notified u size w').users, hm.right]
  differ := hm.differ

/-- One more message, statement or request in both runs. -/
theorem record (h : Renewed env v loose w w') {f : World → World}
    (hrest : ∀ w, (f w).rest = (f w.rest).rest)
    (husers : ∀ w, (f w).users = w.users)
    (hsize : ∀ w, (f w).bufSize = w.bufSize)
    (hboards : ∀ w, (f w).boards = w.boards) :
    Renewed env v loose (f w) (f w') where
  rest := by rw [hrest w', hrest w, h.rest]
  others := by
    rw [husers, husers]
    exact h.others
  session := by
    rw [husers, husers]
    exact h.session
  unseated := by
    rw [hboards]
    exact h.unseated
  standing := by
    rw [husers]
    exact h.standing
  sizes := by
    rw [hsize, hsize]
    exact h.sizes
  pieces := by
    rw [hsize, hsize, husers]
    exact h.pieces

/-- Both runs hand the same frame to libevent, or both fail. -/
theorem onWrite (h : Renewed env v loose w w') (fd : Int)
    (type : MessageType) (body : Payload) (u : SessionId) :
    Option.Rel (Lockstep.Same (Renewed env v loose))
      (onWrite env fd type body u w) (onWrite env fd type body u w') := by
  unfold ChessServer.onWrite
  have hbuffer := h.getBuffer u ((body.bytes env).length + dataHeadLength)
  refine Lockstep.ite (fun _ => .some ⟨rfl, hbuffer⟩) fun _ => ?_
  refine Lockstep.bind (hbuffer.user u) fun s s' hm => ?_
  obtain ⟨locate, rfl⟩ := hm.differ
  refine Lockstep.read rfl fun bufev _ => ?_
  exact .some ⟨rfl, hbuffer.record
    (f := fun w => { w with sent := ⟨u, type, body⟩ :: w.sent })
    (fun _ => rfl) (fun _ => rfl) (fun _ => rfl) fun _ => rfl⟩

/-- A session is answered alike. -/
theorem messageReply (h : Renewed env v loose w w') (u : SessionId)
    (type : MessageType) (body : Payload) :
    Option.Rel (Lockstep.Same (Renewed env v loose))
      (messageReply env u type body w) (messageReply env u type body w') := by
  unfold ChessServer.messageReply
  refine Lockstep.bind (h.user u) fun s s' hm => ?_
  obtain ⟨locate, rfl⟩ := hm.differ
  refine Lockstep.read rfl fun thread _ => ?_
  exact h.onWrite s.clifd type body u

/-! ## The database -/

/-- The database has been sent the same statements, so it answers alike. -/
theorem query (h : Renewed env v loose w w') (sql : Bytes) :
    Lockstep.Same (Renewed env v loose) (w.query env sql)
      (w'.query env sql) := by
  refine ⟨?_, h.record (f := fun w => { w with sqlLog := sql :: w.sqlLog })
    (fun _ => rfl) (fun _ => rfl) (fun _ => rfl) fun _ => rfl⟩
  show env.mysql (sql :: w'.sqlLog) = env.mysql (sql :: w.sqlLog)
  rw [h.sqlLog]

theorem mysqlDbExcute (h : Renewed env v loose w w') (sql : Bytes) :
    Lockstep.Same (Renewed env v loose) (w.mysqlDbExcute env sql)
      (w'.mysqlDbExcute env sql) := by
  obtain ⟨hreply, hquery⟩ := h.query sql
  refine ⟨?_, hquery⟩
  show ((w'.query env sql).1 != .error) = ((w.query env sql).1 != .error)
  rw [hreply]

/-- The row of an account is the same. -/
theorem getUsersInfoFromDB (h : Renewed env v loose w w') (account : Bytes)
    (info : UsersInfo) :
    Option.Rel (Lockstep.Same (Lockstep.Same (Renewed env v loose)))
      (getUsersInfoFromDB env account info w)
      (getUsersInfoFromDB env account info w') := by
  unfold ChessServer.getUsersInfoFromDB mysqlDbQuery
  refine Lockstep.ite (fun _ => .some ⟨rfl, rfl, h⟩) fun _ => ?_
  obtain ⟨hreply, hquery⟩ := h.query (snprintf 254
    (lit "SELECT * FROM users_info WHERE account='" ++ cString account ++
      lit "'"))
  simp only [Option.bind_eq_bind]
  rw [hreply]
  split
  · rename_i rows _
    cases rows.foldlM fetchUserRow info with
    | none => exact .none
    | some info => exact .some ⟨rfl, rfl, hquery⟩
  · exact .some ⟨rfl, rfl, hquery⟩

theorem getHeadImageFromDB (h : Renewed env v loose w w')
    (account data : Bytes) :
    Lockstep.Same (Lockstep.Same (Renewed env v loose))
      (getHeadImageFromDB env account data w)
      (getHeadImageFromDB env account data w') := by
  obtain ⟨hreply, hquery⟩ := h.query (snprintf 254
    (lit "SELECT head_photo FROM users_info WHERE account='" ++
      cString account ++ lit "'"))
  unfold ChessServer.getHeadImageFromDB
  dsimp only
  rw [hreply]
  split
  · exact ⟨rfl, rfl, hquery⟩
  · exact ⟨rfl, rfl, hquery⟩
  · exact ⟨rfl, rfl, hquery⟩

/-- So is the row of a picture. -/
theorem getAdPicturesInfoFromDB (h : Renewed env v loose w w') (id : UInt32)
    (info : AdPicturesInfo) :
    Lockstep.Same (Lockstep.Same (Renewed env v loose))
      (getAdPicturesInfoFromDB env id info w)
      (getAdPicturesInfoFromDB env id info w') := by
  obtain ⟨hreply, hquery⟩ := h.query
    (snprintf 254 (lit "SELECT * FROM ad_pictures WHERE id=" ++ decimal id))
  unfold ChessServer.getAdPicturesInfoFromDB
  dsimp only
  rw [hreply]
  split
  · exact ⟨rfl, rfl, hquery⟩
  · exact ⟨rfl, rfl, hquery⟩

theorem getImageVersionInfoFromDB (h : Renewed env v loose w w')
    (info : ImageVersions) :
    Lockstep.Same (Lockstep.Same (Renewed env v loose))
      (getImageVersionInfoFromDB env info w)
      (getImageVersionInfoFromDB env info w') := by
  obtain ⟨hreply, hquery⟩ := h.query (lit
    "SELECT version, mandatory_update, image_info, locate_path FROM image_version ORDER BY id DESC limit 1")
  unfold ChessServer.getImageVersionInfoFromDB
  dsimp only
  rw [hreply]
  split
  · exact ⟨rfl, rfl, hquery⟩
  · exact ⟨rfl, rfl, hquery⟩

/-! ## Scores -/

/-- A score is raised and stored. -/
theorem increaseScore (h : Renewed env v loose w w') (u : SessionId)
    (score : UInt32) :
    Option.Rel (Renewed env v loose) (increaseScore env u score w)
      (increaseScore env u score w') := by
  unfold ChessServer.increaseScore
  refine Lockstep.bind (h.user u) fun s s' hm => ?_
  have hset := h.setUser hm (fun s =>
    { s with userInfo :=
      { s.userInfo with score := s.userInfo.score + score } })
    (inert_of (fun _ _ => rfl) (fun _ => rfl) fun _ => rfl)
  obtain ⟨locate, rfl⟩ := hm.differ
  refine Lockstep.read rfl fun thread _ => ?_
  exact .some (hset.mysqlDbExcute _).2

/-- A score is lowered and stored. -/
theorem reduceScore (h : Renewed env v loose w w') (u : SessionId)
    (score : UInt32) :
    Option.Rel (Renewed env v loose) (reduceScore env u score w)
      (reduceScore env u score w') := by
  unfold ChessServer.reduceScore
  refine Lockstep.bind (h.user u) fun s s' hm => ?_
  have hset := h.setUser hm (fun s =>
    { s with userInfo :=
      { s.userInfo with score := s.userInfo.score - score } })
    (inert_of (fun _ _ => rfl) (fun _ => rfl) fun _ => rfl)
  obtain ⟨locate, rfl⟩ := hm.differ
  refine Lockstep.read rfl fun thread _ => ?_
  exact .some (hset.mysqlDbExcute _).2

end Renewed

end ChessServer
