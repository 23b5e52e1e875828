import ChessServer.Lib.Passes
import ChessServer.Model.Client
import ChessServer.Proofs.Step
import ChessServer.Server.Download

/-!
# A downloaded picture is the file

However much of the file a request yields, the replies of a pass make up the
whole of it, and the file is open exactly while a pass goes on
(`download_reassembles`).  So it is for the sessions of the server
(`serves_reassembles`).
-/

namespace ChessServer.Download

variable {env : Env} {bufSize : Nat} {image : UInt32} {file : Bytes}
  {s s' : Session}

/-- The bytes of a reply. -/
def content (reply : AdPictureContentReply) : Bytes := reply.content.getD []

/-- The content replies among all replies. -/
def contents (sent : List Payload) : List AdPictureContentReply :=
  sent.filterMap fun
    | .adPictureContentReply reply => some reply
    | _ => none

theorem contents_reply (sent : List Payload) (reply : AdPictureContentReply) :
    contents (sent ++ [.adPictureContentReply reply]) =
      contents sent ++ [reply] :=
  List.filterMap_append

theorem contents_info (sent : List Payload) (reply : AdPictureItemReply) :
    contents (sent ++ [.adPictureItemReply reply]) = contents sent :=
  List.filterMap_append.trans (List.append_nil _)

/-- Every pass that is over sent the file and closed it once, the one that goes
on sent what comes before the rest, and the session only leaves in between. -/
structure Reassembles (file : Bytes) (s : Session) : Prop where
  reading : Passes.Reading content AdPictureContentReply.ended file s.adImgFp
    (contents s.sent)
  closed : s.closed =
    (contents s.sent).countP AdPictureContentReply.ended
  ready : s.nextState = some .gameReady → s.adImgFp = none

/-! ## The calls -/

/-- The sessions that differ in the buffer alone. -/
def Session.SameFile (s s' : Session) : Prop :=
  s'.adImgFp = s.adImgFp ∧ s'.nextState = s.nextState ∧ s'.sent = s.sent ∧
    s'.closed = s.closed

theorem getBuffer_sameFile (size : Nat) (s : Session) :
    s.SameFile (s.getBuffer size) := by
  unfold Session.getBuffer
  split
  · exact ⟨rfl, rfl, rfl, rfl⟩
  · split
    · exact ⟨rfl, rfl, rfl, rfl⟩
    · exact ⟨rfl, rfl, rfl, rfl⟩

theorem Reassembles.sameFile (h : Reassembles file s) (hsame : s.SameFile s') :
    Reassembles file s' := by
  obtain ⟨hfp, hnext, hsent, hclosed⟩ := hsame
  refine ⟨?_, ?_, ?_⟩
  · rw [hfp, hsent]
    exact h.reading
  · rw [hclosed, hsent]
    exact h.closed
  · rw [hfp, hnext]
    exact h.ready

/-- A reply is sent, and the rest of the session is what it was. -/
theorem messageReply_eq (env : Env) (body : Payload) (s : Session) :
    { s with sent := s.sent ++ [body] }.SameFile
      (s.messageReply env body) := by
  obtain ⟨hfp, hnext, hsent, hclosed⟩ := getBuffer_sameFile
    ((body.bytes env).length + dataHeadLength) s
  refine ⟨hfp, hnext, ?_, hclosed⟩
  show _ ++ [body] = s.sent ++ [body]
  rw [hsent]

theorem Reassembles.downloadImageInfo (h : Reassembles file s)
    (info : AdPicturesInfo) :
    Reassembles file (s.downloadImageInfo env info) := by
  refine Reassembles.sameFile ?_ (messageReply_eq env _ s)
  refine ⟨?_, ?_, h.ready⟩
  · show Passes.Reading _ _ _ _ (contents (s.sent ++ [.adPictureItemReply _]))
    rw [contents_info]
    exact h.reading
  · show _ = (contents (s.sent ++ [.adPictureItemReply _])).countP _
    rw [contents_info]
    exact h.closed

/-- Some bytes are left, and `fread` yields some of them. -/
theorem Reassembles.piece (h : Reassembles file s)
    (hnext : s.nextState = none) {fp : Bytes}
    (hfp : s.adImgFp.getD file = fp) (rdSize : Nat) :
    Reassembles file ({ s with adImgFp := some (fp.drop rdSize) }.messageReply
      env (.adPictureContentReply ⟨false, some (fp.take rdSize)⟩)) := by
  refine Reassembles.sameFile ?_ (messageReply_eq env _ _)
  have hcontent : content ⟨false, some (fp.take rdSize)⟩ ++ fp.drop rdSize =
      s.adImgFp.getD file := by
    rw [hfp]
    exact List.take_append_drop rdSize fp
  refine ⟨?_, ?_, fun hready => ?_⟩
  · show Passes.Reading _ _ _ _
      (contents (s.sent ++ [.adPictureContentReply _]))
    rw [contents_reply]
    exact h.reading.piece rfl hcontent
  · show s.closed = (contents (s.sent ++ [.adPictureContentReply _])).countP _
    rw [contents_reply, List.countP_append, h.closed]
    rfl
  · rw [hnext] at hready
    cases hready

/-- Nothing is left. -/
theorem Reassembles.ended (h : Reassembles file s)
    (hfp : s.adImgFp.getD file = []) :
    Reassembles file (s.fclose.messageReply env
      (.adPictureContentReply ⟨true, none⟩)) := by
  refine Reassembles.sameFile ?_ (messageReply_eq env _ _)
  refine ⟨?_, ?_, fun _ => rfl⟩
  · show Passes.Reading _ _ _ none
      (contents (s.sent ++ [.adPictureContentReply _]))
    rw [contents_reply]
    exact h.reading.mark rfl rfl hfp
  · show s.closed + 1 =
      (contents (s.sent ++ [.adPictureContentReply _])).countP _
    rw [contents_reply, List.countP_append, h.closed]
    rfl

/-- The file is open when content is sent, from the start or where the last
request stopped. -/
theorem openImage_names {r : Request} (hnames : Names env image file r) :
    s.openImage env r = { s with adImgFp := some (s.adImgFp.getD file) } := by
  unfold Session.openImage
  cases hfp : s.adImgFp with
  | none => rw [if_pos ⟨rfl, hnames.2.1⟩, hnames.2.2, Option.getD_none]
  | some fp =>
      rw [if_neg (fun h => absurd h.1 (Option.some_ne_none fp)),
        Option.getD_some, ← hfp]

theorem getBuffer_open (size : Nat) (fp : Option Bytes) (s : Session) :
    { s with adImgFp := fp }.getBuffer size =
      { s.getBuffer size with adImgFp := fp } := by
  unfold Session.getBuffer
  dsimp only
  split
  · rfl
  · split
    · rfl
    · rfl

/-- A request for content when the session has a buffer. -/
theorem Reassembles.sendImageContent (h : Reassembles file s)
    (hnext : s.nextState = none) {r : Request}
    (hnames : Names env image file r)
    (hfreads : Freads (s.getBuffer maxDataLength).bufSize
      (s.adImgFp.getD file) r.rdSize) :
    Reassembles file
      ((s.openImage env r).sendImageContent env r.rdSize).2 := by
  have hsame := getBuffer_sameFile maxDataLength s
  have hbuffer := h.sameFile hsame
  have hleft : (s.getBuffer maxDataLength).adImgFp.getD file =
      s.adImgFp.getD file := by rw [hsame.1]
  rw [openImage_names hnames]
  unfold Session.sendImageContent
  rw [getBuffer_open]
  dsimp only
  split
  · exact hbuffer.piece (hsame.2.1.trans hnext) hleft r.rdSize
  · rename_i hread
    have hzero : r.rdSize = 0 := by omega
    exact hbuffer.ended (hleft.trans (hfreads.2.2 hzero))

/-! ## A request -/

/-- Only the handling of a content request opens the file. -/
theorem Reassembles.adPictureReply (h : Reassembles file s)
    (hnext : s.nextState = none) {r : Request}
    (hcontent : r.item.reqType = 2 → Names env image file r ∧
      Freads (s.getBuffer maxDataLength).bufSize (s.adImgFp.getD file)
        r.rdSize) :
    Reassembles file (s.adPictureReply env r).2 := by
  unfold Session.adPictureReply
  split
  · exact h.downloadImageInfo r.info
  · split
    · rename_i htype
      obtain ⟨hnames, hfreads⟩ := hcontent htype
      exact h.sendImageContent hnext hnames hfreads
    · exact h

theorem Reassembles.adPictureItemHandle (h : Reassembles file s)
    (hnext : s.nextState = none) {r : Request}
    (hcontent : r.item.reqType = 2 → Names env image file r ∧
      Freads (s.getBuffer maxDataLength).bufSize (s.adImgFp.getD file)
        r.rdSize) :
    Reassembles file (s.adPictureItemHandle env r).2 := by
  have hreply := h.adPictureReply hnext hcontent
  unfold Session.adPictureItemHandle
  dsimp only
  split
  · rename_i hlast
    exact ⟨hreply.reading, hreply.closed, fun _ => hlast.2.1⟩
  · exact hreply

theorem reassembles_start (file : Bytes) (bufSize : Nat) :
    Reassembles file { bufSize } where
  reading := Passes.reading_start
  closed := rfl
  ready := nofun

/-- What was sent stays right when one more request is handled. -/
theorem Reassembles.step {r : Request} {s' : Session}
    (h : Reassembles file s)
    (henabled : (download env bufSize image file).enabled r s)
    (hstep : (download env bufSize image file).step r s = some s') :
    Reassembles file s' := by
  have hs' : ((s.getBuffer r.totalSize).adPictureItemHandle env r).2 = s' :=
    Option.some.inj hstep
  obtain ⟨hnext, hcontent⟩ := henabled
  have hsame := getBuffer_sameFile r.totalSize s
  rw [← hs']
  have hcontent' : r.item.reqType = 2 → Names env image file r ∧
      Freads ((s.getBuffer r.totalSize).getBuffer maxDataLength).bufSize
        ((s.getBuffer r.totalSize).adImgFp.getD file) r.rdSize := by
    rw [hsame.1]
    exact hcontent
  exact (h.sameFile hsame).adPictureItemHandle (hsame.2.1.trans hnext) hcontent'

/-- For every file, every size of the buffer, and every run of requests that
ask for the content of one picture: what a session has sent are passes that
make up the file. -/
theorem download_reassembles
    (h : (download env bufSize image file).Reachable s) :
    Reassembles file s := by
  refine h.invariant (I := Reassembles file) (reassembles_start file bufSize) ?_
  intro r a b ha henabled _ hstep
  exact ha.step henabled hstep

/-! ## Three bytes -/

instance (size : Nat) (rest : Bytes) (rdSize : Nat) :
    Decidable (Freads size rest rdSize) :=
  inferInstanceAs (Decidable (_ ∧ _ ∧ (_ → _)))

instance (env : Env) (image : UInt32) (file : Bytes) (r : Request) :
    Decidable (Names env image file r) :=
  inferInstanceAs (Decidable (_ ∧ _ ∧ _))

instance (env : Env) (bufSize : Nat) (image : UInt32) (file : Bytes)
    (r : Request) (s : Session) :
    Decidable ((download env bufSize image file).enabled r s) :=
  inferInstanceAs (Decidable (_ ∧ (_ → _)))

/-- A file of three bytes. -/
def threeBytes : Env := { Client.env with fopen := fun _ => some [1, 2, 3] }

/-- A request for the content of picture 7, or for what is known of it. -/
def request (reqType : UInt32) (rdSize : Nat) (lastOne : Bool) : Request :=
  { totalSize := 14, item := ⟨7, reqType, some lastOne⟩, found := true
    info := {}, rdSize }

/-- What a session has sent when the picture was asked for to its end. -/
def threeBytesSent : Session :=
  { bufSize := 8200
    nextState := some .gameReady
    sent := [.adPictureContentReply ⟨false, some [1, 2]⟩,
      .adPictureItemReply { imageId := 0, existed := false },
      .adPictureContentReply ⟨false, some [3]⟩,
      .adPictureContentReply ⟨true, none⟩]
    closed := 1 }

/-- The bytes come in two pieces, with a request for something else between
them. -/
theorem three_bytes_reassembled : Reassembles [1, 2, 3] threeBytesSent := by
  have hrun : (download threeBytes 0 7 [1, 2, 3]).run (fun _ _ => True)
      [request 2 2 true, request 1 0 true, request 2 1 true, request 2 0 true]
      { bufSize := 0 } = some threeBytesSent := by decide
  exact download_reassembles (Machine.reachableWith_of_run .start hrun)

/-! ## The server's session -/

/-- The type of a reply of the state. -/
def replyType : Payload → MessageType
  | .adPictureItemReply _ => .adImageInfo
  | _ => .adImageContent

/-- A session of the server whose replies are accepted. -/
structure Shows (us : UserSession) (s : Session) : Prop where
  thread : ∃ t, us.thread = some t
  bufev : ∃ b, us.bufev = some b
  clifd : ¬ us.clifd < 0
  adImgFp : us.adImgFp = s.adImgFp
  nextState : us.nextState = s.nextState

/-- The server has such a session; `old` was sent before. -/
structure Mirrors (u : SessionId) (old : List Sent) (w : World) (s : Session) :
    Prop where
  user : ∃ us, w.users u = some us ∧ Shows us s
  bufSize : w.bufSize u = s.bufSize
  sent : w.sent =
    (s.sent.map fun body => ⟨u, replyType body, body⟩).reverse ++ old

variable {u : SessionId} {old : List Sent} {w : World}

theorem Mirrors.getBuffer (h : Mirrors u old w s) (size : Nat) :
    Mirrors u old (w.getBuffer u size) (s.getBuffer size) := by
  obtain ⟨us, hu, hus⟩ := h.user
  unfold World.getBuffer Session.getBuffer
  rw [h.bufSize]
  split
  · refine ⟨⟨us, hu, ?_⟩, Function.update_self _ _ _, h.sent⟩
    exact ⟨hus.thread, hus.bufev, hus.clifd, hus.adImgFp, hus.nextState⟩
  · split
    · refine ⟨⟨us, hu, ?_⟩, Function.update_self _ _ _, h.sent⟩
      exact ⟨hus.thread, hus.bufev, hus.clifd, hus.adImgFp, hus.nextState⟩
    · exact h

theorem Mirrors.messageReply (h : Mirrors u old w s) (env : Env)
    (body : Payload) : ∃ w',
      ChessServer.messageReply env u (replyType body) body w =
        some (true, w') ∧ Mirrors u old w' (s.messageReply env body) := by
  have hbuffer := h.getBuffer ((body.bytes env).length + dataHeadLength)
  obtain ⟨us, hu, hus⟩ := hbuffer.user
  obtain ⟨t, ht⟩ := hus.thread
  obtain ⟨b, hb⟩ := hus.bufev
  have hu' : w.users u = some us := by
    rw [← hu, (getBuffer_notified u _ w).users]
  simp only [ChessServer.messageReply, onWrite, hu', ht, hu, hb, hus.clifd,
    Option.bind_eq_bind, Option.bind_some, if_false, Option.some.injEq,
    Prod.mk.injEq, true_and, exists_eq_left']
  refine ⟨⟨us, hu, hus.thread, hus.bufev, hus.clifd, hus.adImgFp,
    hus.nextState⟩, hbuffer.bufSize, ?_⟩
  show _ :: (w.getBuffer u _).sent = _
  rw [hbuffer.sent]
  show _ = (((s.getBuffer _).sent ++ [body]).map _).reverse ++ old
  rw [List.map_append, List.reverse_append]
  rfl

/-- Fields of the session are assigned. -/
theorem Mirrors.modifyUser (h : Mirrors u old w s)
    (f : UserSession → UserSession) (s' : Session)
    (hf : ∀ us, Shows us s → Shows (f us) s')
    (hbuf : s'.bufSize = s.bufSize) (hsent : s'.sent = s.sent) :
    ∃ w', w.modifyUser u f = some w' ∧ Mirrors u old w' s' := by
  obtain ⟨us, hu, hus⟩ := h.user
  refine ⟨w.setUser u (f us), modifyUser_eq hu f,
    ⟨f us, setUser_users_self w u (f us), hf us hus⟩, ?_, ?_⟩
  · exact h.bufSize.trans hbuf.symm
  · rw [hsent]
    exact h.sent

theorem Mirrors.downloadImageInfo (h : Mirrors u old w s) (env : Env)
    (info : AdPicturesInfo) : ∃ w',
      ChessServer.downloadImageInfo env u info w = some (true, w') ∧
        Mirrors u old w' (s.downloadImageInfo env info) :=
  h.messageReply env (.adPictureItemReply _)

/-- What `fread` returns when it fills the buffer or stops at the end. -/
def fills (s : Session) (fp : Bytes) : Nat :=
  min (s.getBuffer maxDataLength).bufSize fp.length

theorem take_fills (s : Session) (fp : Bytes) :
    fp.take (fills s fp) = fp.take (s.getBuffer maxDataLength).bufSize ∧
      fp.drop (fills s fp) = fp.drop (s.getBuffer maxDataLength).bufSize := by
  unfold fills
  rcases Nat.le_total (s.getBuffer maxDataLength).bufSize fp.length with
    hle | hle
  · rw [Nat.min_eq_left hle]
    exact ⟨rfl, rfl⟩
  · rw [Nat.min_eq_right hle, List.take_length, List.drop_length,
      List.take_of_length_le hle, List.drop_of_length_le hle]
    exact ⟨rfl, rfl⟩

theorem getBuffer_pos (s : Session) :
    0 < (s.getBuffer maxDataLength).bufSize := by
  have hpos : 0 < maxDataLength := by decide
  unfold Session.getBuffer
  split
  · exact hpos
  · split
    · exact hpos
    · rename_i hlt
      exact Nat.lt_of_lt_of_le hpos (Nat.not_lt.mp hlt)

/-- It is one of the results that `fread` may have. -/
theorem freads_fills (s : Session) (fp : Bytes) :
    Freads (s.getBuffer maxDataLength).bufSize fp (fills s fp) := by
  have hpos := getBuffer_pos s
  refine ⟨Nat.min_le_left _ _, Nat.min_le_right _ _, fun hzero => ?_⟩
  unfold fills at hzero
  exact List.eq_nil_of_length_eq_zero (by omega)

/-- Content of an open file. -/
theorem Mirrors.sendImageContent (h : Mirrors u old w s) (env : Env)
    {fp : Bytes} (hfp : s.adImgFp = some fp) : ∃ w',
      ChessServer.sendImageContent env u w = some (true, w') ∧
        (s.sendImageContent env (fills s fp)).1 = true ∧
        Mirrors u old w' (s.sendImageContent env (fills s fp)).2 := by
  have hbuffer := h.getBuffer maxDataLength
  obtain ⟨us, hu, hus⟩ := hbuffer.user
  have hsame := getBuffer_sameFile maxDataLength s
  have hfp' := hsame.1.trans hfp
  have husfp := hus.adImgFp.trans hfp'
  have hlength : (fp.take (fills s fp)).length = fills s fp :=
    List.length_take_of_le (Nat.min_le_right _ _)
  unfold ChessServer.sendImageContent Session.sendImageContent
  simp only [Option.bind_eq_bind, hu, husfp, hfp', Option.bind_some]
  rw [hbuffer.bufSize, ← (take_fills s fp).1, ← (take_fills s fp).2, hlength]
  split
  · obtain ⟨w₁, hw₁, hopen⟩ := hbuffer.modifyUser
      (fun us => { us with adImgFp := some (fp.drop (fills s fp)) })
      { s.getBuffer maxDataLength with
        adImgFp := some (fp.drop (fills s fp)) }
      (fun us hus => ⟨hus.thread, hus.bufev, hus.clifd, rfl, hus.nextState⟩)
      rfl rfl
    obtain ⟨w₂, hw₂, hreply⟩ := hopen.messageReply env
      (.adPictureContentReply ⟨false, some (fp.take (fills s fp))⟩)
    refine ⟨w₂, ?_, rfl, hreply⟩
    rw [hw₁, Option.bind_some, show ChessServer.messageReply env u
      .adImageContent _ w₁ = some (true, w₂) from hw₂]
    rfl
  · obtain ⟨w₁, hw₁, hclosed⟩ := hbuffer.modifyUser
      (fun us => { us with adImgFp := none })
      (s.getBuffer maxDataLength).fclose
      (fun us hus => ⟨hus.thread, hus.bufev, hus.clifd, rfl, hus.nextState⟩)
      rfl rfl
    obtain ⟨w₂, hw₂, hreply⟩ := hclosed.messageReply env
      (.adPictureContentReply ⟨true, none⟩)
    refine ⟨w₂, ?_, rfl, hreply⟩
    rw [hw₁, Option.bind_some, show ChessServer.messageReply env u
      .adImageContent _ w₁ = some (true, w₂) from hw₂]
    rfl

/-- What the request finds in the database. -/
theorem Mirrors.getAdPicturesInfoFromDB (h : Mirrors u old w s) (env : Env)
    (id : UInt32) (info : AdPicturesInfo) :
    Mirrors u old (getAdPicturesInfoFromDB env id info w).2.2 s := by
  unfold ChessServer.getAdPicturesInfoFromDB World.query
  dsimp only
  split
  · exact ⟨h.user, h.bufSize, h.sent⟩
  · exact ⟨h.user, h.bufSize, h.sent⟩

theorem Mirrors.openImage (h : Mirrors u old w s) {r : Request}
    (hfound : r.found = (ChessServer.getAdPicturesInfoFromDB env
      r.item.imageId {} w).1)
    (hinfo : r.info = (ChessServer.getAdPicturesInfoFromDB env
      r.item.imageId {} w).2.1) :
    ∃ w', ChessServer.openImage env u r.item.imageId w = some w' ∧
      Mirrors u old w' (s.openImage env r) := by
  obtain ⟨us, hu, hus⟩ := h.user
  obtain ⟨t, ht⟩ := hus.thread
  have hquery := h.getAdPicturesInfoFromDB env r.item.imageId {}
  unfold ChessServer.openImage Session.openImage
  simp only [Option.bind_eq_bind, hu, ht, Option.bind_some, hus.adImgFp]
  rw [← hfound, ← hinfo]
  by_cases hfp : s.adImgFp = none
  · rw [if_pos hfp]
    by_cases hrow : r.found = true
    · rw [if_pos hrow, if_pos ⟨hfp, hrow⟩]
      exact hquery.modifyUser
        (fun us => { us with adImgFp := env.fopen r.info.locatePath })
        { s with adImgFp := env.fopen r.info.locatePath }
        (fun us hus => ⟨hus.thread, hus.bufev, hus.clifd, rfl, hus.nextState⟩)
        rfl rfl
    · rw [if_neg hrow, if_neg fun hopen => hrow hopen.2]
      exact ⟨_, rfl, hquery⟩
  · rw [if_neg hfp, if_neg fun hopen => hfp hopen.1]
    exact ⟨w, rfl, h⟩

/-- The request as this model takes it. -/
structure Asks (env : Env) (w : World) (s : Session) (file : Bytes)
    (r : Request) : Prop where
  found : r.found =
    (ChessServer.getAdPicturesInfoFromDB env r.item.imageId {} w).1
  info : r.info =
    (ChessServer.getAdPicturesInfoFromDB env r.item.imageId {} w).2.1
  rdSize : r.rdSize = fills s (s.adImgFp.getD file)

theorem Mirrors.adPictureReply (h : Mirrors u old w s) {r : Request}
    (hasks : Asks env w s file r)
    (hnames : r.item.reqType = 2 → Names env image file r) :
    ∃ w', ChessServer.adPictureReply env u r.item w = some (true, w') ∧
      (s.adPictureReply env r).1 = true ∧
      Mirrors u old w' (s.adPictureReply env r).2 := by
  obtain ⟨us, hu, hus⟩ := h.user
  obtain ⟨t, ht⟩ := hus.thread
  unfold ChessServer.adPictureReply Session.adPictureReply
  split
  · obtain ⟨w₁, hw₁, hreply⟩ :=
      (h.getAdPicturesInfoFromDB env r.item.imageId {}).downloadImageInfo env
        r.info
    refine ⟨w₁, ?_, rfl, hreply⟩
    rw [hasks.info] at hw₁
    simp only [Option.bind_eq_bind, hu, ht, Option.bind_some, hw₁]
  · split
    · rename_i htype
      obtain ⟨w₁, hw₁, hopen⟩ := h.openImage hasks.found hasks.info
      rw [openImage_names (hnames htype)] at hopen ⊢
      obtain ⟨w₂, hw₂, hret, hreply⟩ := hopen.sendImageContent env rfl
      have hfills : fills { s with adImgFp := some (s.adImgFp.getD file) }
          (s.adImgFp.getD file) = r.rdSize := by
        rw [hasks.rdSize]
        unfold fills
        rw [getBuffer_open]
      rw [hfills] at hret hreply
      refine ⟨w₂, ?_, hret, hreply⟩
      simp only [Option.bind_eq_bind, hw₁, Option.bind_some, hw₂]
    · exact ⟨w, rfl, rfl, h⟩

theorem Mirrors.adPictureItemHandle (h : Mirrors u old w s) {r : Request}
    {msg : Bytes} (hmsg : env.proto.adPictureReq msg = some r.item)
    (hasks : Asks env w s file r)
    (hnames : r.item.reqType = 2 → Names env image file r) :
    ∃ w', ChessServer.adPictureItemHandle env u msg w = some (true, w') ∧
      Mirrors u old w' (s.adPictureItemHandle env r).2 := by
  obtain ⟨w₁, hw₁, hret, hreply⟩ := h.adPictureReply hasks hnames
  obtain ⟨us, hu, hus⟩ := hreply.user
  unfold ChessServer.adPictureItemHandle Session.adPictureItemHandle
  simp only [hmsg, Option.bind_eq_bind, hw₁, Option.bind_some, hu, hret,
    hus.adImgFp]
  split
  · obtain ⟨w₂, hw₂, hready⟩ := hreply.modifyUser
      (fun us => { us with nextState := some .gameReady })
      { (s.adPictureReply env r).2 with nextState := some .gameReady }
      (fun us hus => ⟨hus.thread, hus.bufev, hus.clifd, hus.adImgFp, rfl⟩)
      rfl rfl
    refine ⟨w₂, ?_, hready⟩
    rw [setNextState, hw₂, Option.bind_some]
  · exact ⟨w₁, rfl, hreply⟩

/-- The server's handling of a request is a step of the download. -/
theorem handle_mirrors (h : Mirrors u old w s) (hnext : s.nextState = none)
    {totalSize : Nat} {msg : Bytes} {item : AdPictureReq}
    (hmsg : env.proto.adPictureReq msg = some item)
    (hnames : item.reqType = 2 → item.imageId = image ∧
      (ChessServer.getAdPicturesInfoFromDB env item.imageId {}
        (w.getBuffer u totalSize)).1 = true ∧
      env.fopen (ChessServer.getAdPicturesInfoFromDB env item.imageId {}
        (w.getBuffer u totalSize)).2.1.locatePath = some file) :
    ∃ r s' w', (download env bufSize image file).enabled r s ∧
      (download env bufSize image file).step r s = some s' ∧
      ChessServer.adPictureItemHandle env u msg (w.getBuffer u totalSize) =
        some (true, w') ∧ Mirrors u old w' s' := by
  let row := ChessServer.getAdPicturesInfoFromDB env item.imageId {}
    (w.getBuffer u totalSize)
  let r : Request :=
    { totalSize, item, found := row.1, info := row.2.1
      rdSize := fills (s.getBuffer totalSize)
        ((s.getBuffer totalSize).adImgFp.getD file) }
  have hsame := getBuffer_sameFile totalSize s
  have hasks : Asks env (w.getBuffer u totalSize) (s.getBuffer totalSize) file
      r := ⟨rfl, rfl, rfl⟩
  have hnames' : r.item.reqType = 2 → Names env image file r := hnames
  have henabled : (download env bufSize image file).enabled r s := by
    refine ⟨hnext, fun htype => ⟨hnames' htype, ?_⟩⟩
    rw [← hsame.1]
    exact freads_fills _ _
  obtain ⟨w', hw', hmirror⟩ :=
    (h.getBuffer totalSize).adPictureItemHandle hmsg hasks hnames'
  exact ⟨r, _, w', henabled, rfl, hw', hmirror⟩

/-- The server handles requests of one session: content is asked for of one
picture only, whose file can be opened, and not after the session was told to
go on to the hall. -/
inductive Serves (env : Env) (u : SessionId) (image : UInt32) (file : Bytes) :
    World → World → Prop where
  | refl (w : World) : Serves env u image file w w
  | request {w₀ w w' : World} {us : UserSession} {totalSize : Nat} {msg : Bytes}
      {item : AdPictureReq} (h : Serves env u image file w₀ w)
      (hu : w.users u = some us) (hnext : us.nextState = none)
      (hmsg : env.proto.adPictureReq msg = some item)
      (hnames : item.reqType = 2 → item.imageId = image ∧
        (ChessServer.getAdPicturesInfoFromDB env item.imageId {}
          (w.getBuffer u totalSize)).1 = true ∧
        env.fopen (ChessServer.getAdPicturesInfoFromDB env item.imageId {}
          (w.getBuffer u totalSize)).2.1.locatePath = some file)
      (hhandle : ChessServer.adPictureItemHandle env u msg
        (w.getBuffer u totalSize) = some (true, w')) :
      Serves env u image file w₀ w'

/-- A session that comes from the login has asked for nothing yet. -/
theorem mirrors_start {us : UserSession} (hu : w.users u = some us)
    (hthread : us.thread.isSome) (hbufev : us.bufev.isSome)
    (hclifd : 0 ≤ us.clifd) (hfp : us.adImgFp = none)
    (hnext : us.nextState = none) :
    Mirrors u w.sent w { bufSize := w.bufSize u } where
  user := ⟨us, hu, Option.isSome_iff_exists.mp hthread,
    Option.isSome_iff_exists.mp hbufev, by omega, hfp, hnext⟩
  bufSize := rfl
  sent := rfl

/-- Whatever requests the server handles of a session that comes from the
login, what it has sent to it since are passes that make up the file. -/
theorem serves_reassembles {w₀ w : World} {us : UserSession}
    (hu : w₀.users u = some us) (hthread : us.thread.isSome)
    (hbufev : us.bufev.isSome) (hclifd : 0 ≤ us.clifd)
    (hfp : us.adImgFp = none) (hnext : us.nextState = none)
    (h : Serves env u image file w₀ w) :
    ∃ s, Mirrors u w₀.sent w s ∧ Reassembles file s := by
  have hstart := mirrors_start hu hthread hbufev hclifd hfp hnext
  induction h with
  | refl => exact ⟨_, hstart, reassembles_start file _⟩
  | request _ hu' hnext' hmsg hnames hhandle ih =>
      obtain ⟨s, hmirror, hfile⟩ := ih
      obtain ⟨us', hus', hshows⟩ := hmirror.user
      rw [hu', Option.some.injEq] at hus'
      subst hus'
      obtain ⟨r, s', w', henabled, hstep, hhandle', hmirror'⟩ :=
        @handle_mirrors env 0 image file s u w₀.sent _ hmirror
          (hshows.nextState.symm.trans hnext') _ _ _ hmsg hnames
      rw [hhandle, Option.some.injEq, Prod.mk.injEq] at hhandle'
      obtain ⟨-, rfl⟩ := hhandle'
      exact ⟨s', hmirror', hfile.step henabled hstep⟩

end ChessServer.Download
