import ChessServer.Model.Frames
import ChessServer.Server.Socket

/-!
# Whole messages or none

`unix_domain_recv_msg` fills the caller's buffer piece by piece.  When the
header says that the message is longer than the buffer, it goes on in a buffer
of its own, and returns 0 all the same (`recv_sound_iff`).
-/

namespace ChessServer.LibTimer

variable {size : UInt32} {buffer data : Bytes} {a : Transfer}

/-- A return value of 0 says that the caller's buffer holds the message, and a
call that is cut short returns another value. -/
structure Sound (data : Bytes) (size : UInt32) (a : Transfer) : Prop where
  whole : a.receiver.ret = some 0 →
    a.receiver.recvLen = (unixDomainMsg data).length ∧
      unixDomainMsg data <+: a.receiver.orgMsg
  cut : ∀ r malloc, r = .fails ∨ r = .shutdown →
    (a.step (unixDomainMsg data) size (.recv r malloc)).receiver.ret =
      some (-1)

theorem length_unixDomainMsg (data : Bytes) :
    (unixDomainMsg data).length = 4 + data.length := by
  unfold unixDomainMsg
  rw [List.length_append]
  rfl

/-- The header of a message says how long it is. -/
theorem size_unixDomainMsg (hdata : data.length < UInt32.size) (rest : Bytes)
    {n : Nat} (hn : 4 ≤ n) :
    (readLe32 ((unixDomainMsg data).take n ++ rest)).toNat = data.length := by
  have htake : (unixDomainMsg data).take n =
      le32 data.length.toUInt32 ++ data.take (n - 4) := by
    unfold unixDomainMsg
    rw [List.take_append]
    have hlen : (le32 data.length.toUInt32).length = 4 := rfl
    rw [hlen, List.take_of_length_le (by rw [hlen]; exact hn)]
  rw [htake, List.append_assoc, readLe32_le32]
  exact UInt32.toNat_ofNat_of_lt' hdata

/-- Filling a buffer goes on where it stopped. -/
theorem splice_take (msg buf : Bytes) {n rc : Nat} (hn : n ≤ msg.length)
    (hrc : n + rc ≤ msg.length) :
    splice (msg.take n ++ buf.drop n) n ((msg.drop n).take rc) =
      msg.take (n + rc) ++ buf.drop (n + rc) := by
  have hlen : (msg.take n).length = n := List.length_take_of_le hn
  have hrc' : ((msg.drop n).take rc).length = rc := by
    rw [List.length_take_of_le]
    rw [List.length_drop]
    omega
  unfold splice
  rw [hrc', List.take_left' hlen, List.take_add, List.drop_append, hlen]
  have hempty : (msg.take n).drop (n + rc) = [] := by
    rw [List.drop_eq_nil_iff, hlen]
    omega
  rw [hempty, List.nil_append, List.drop_drop]
  congr 2
  omega

/-! ## Messages that fit -/

/-- The receiver of a message that fits its buffer. -/
structure Filling (buffer data : Bytes) (size : UInt32) (a : Transfer) :
    Prop where
  sent : a.sender.sendLen ≤ (unixDomainMsg data).length
  received : a.receiver.recvLen ≤ a.sender.sendLen
  own : a.receiver.rxBuff = none
  content : a.receiver.orgMsg =
    (unixDomainMsg data).take a.receiver.recvLen ++
      buffer.drop a.receiver.recvLen
  /-- the header has arrived -/
  header : a.receiver.gotMsgHdr = true →
    a.receiver.msgLen.toNat = (unixDomainMsg data).length
  /-- the header has not arrived yet -/
  noHeader : a.receiver.gotMsgHdr = false →
    a.receiver.msgLen = size ∧ a.receiver.recvLen < 4
  whole : a.receiver.ret = some 0 →
    a.receiver.recvLen = (unixDomainMsg data).length

theorem filling_start :
    Filling buffer data size (transfer size buffer data).start where
  sent := Nat.zero_le _
  received := Nat.le_refl 0
  own := rfl
  content := rfl
  header := by
    intro h
    cases h
  noHeader := by
    intro _
    exact ⟨rfl, Nat.zero_lt_succ 3⟩
  whole := by
    intro h
    cases h

theorem Filling.send {r : Round} (h : Filling buffer data size a)
    (hcan : a.CanSend (unixDomainMsg data) r) :
    Filling buffer data size
      (a.step (unixDomainMsg data) size (.send r)) := by
  have hkept : ∀ s : SendMsg, a.sender.sendLen ≤ s.sendLen →
      s.sendLen ≤ (unixDomainMsg data).length →
      Filling buffer data size { a with sender := s } :=
    fun s hle hlen => ⟨hlen, h.received.trans hle, h.own, h.content, h.header,
      h.noHeader, h.whole⟩
  cases r with
  | bytes rc => exact hkept _ (Nat.le_add_right _ _) hcan.2
  | again => exact hkept a.sender (Nat.le_refl _) h.sent
  | fails => exact hkept _ (Nat.le_refl _) h.sent
  | shutdown => exact hkept _ (Nat.le_refl _) h.sent

theorem Filling.check (h : Filling buffer data size a)
    (hfits : 4 + data.length ≤ size.toNat) :
    Filling buffer data size { a with receiver := a.receiver.check } := by
  unfold RecvMsg.check
  split
  · rename_i hloop
    refine ⟨h.sent, h.received, h.own, h.content, h.header, h.noHeader,
      fun _ => ?_⟩
    show a.receiver.recvLen = (unixDomainMsg data).length
    have hreceived := h.received.trans h.sent
    cases hgot : a.receiver.gotMsgHdr with
    | true =>
        have htarget := h.header hgot
        omega
    | false =>
        obtain ⟨hsize, hfew⟩ := h.noHeader hgot
        rw [hsize] at hloop
        omega
  · exact h

theorem fill_pending (rc : Nat) (h : Filling buffer data size a)
    (hmsg : a.receiver.recvLen + rc ≤ (unixDomainMsg data).length) :
    a.receiver.fill (a.pending (unixDomainMsg data) (.bytes rc)) =
      { a.receiver with
        orgMsg := (unixDomainMsg data).take (a.receiver.recvLen + rc) ++
          buffer.drop (a.receiver.recvLen + rc)
        recvLen := a.receiver.recvLen + rc } := by
  have hrc : (((unixDomainMsg data).drop a.receiver.recvLen).take rc).length =
      rc := by
    rw [List.length_take_of_le]
    rw [List.length_drop]
    omega
  have hown := h.own
  unfold RecvMsg.fill Transfer.pending
  rw [hown]
  dsimp only
  rw [hrc, h.content, splice_take _ _ (by omega) hmsg, hown]

/-- The header of a message that fits. -/
theorem header_fits (s : RecvMsg) (malloc : Bool)
    (hfits : 4 + data.length ≤ size.toNat) {rest : Bytes}
    (hcontent : s.orgMsg = (unixDomainMsg data).take s.recvLen ++ rest) :
    (s.gotMsgHdr = false ∧ 4 ≤ s.recvLen ∧ ∃ msgLen : UInt32,
      msgLen.toNat = (unixDomainMsg data).length ∧
        s.header size malloc = { s with gotMsgHdr := true, msgLen }) ∨
      ((s.gotMsgHdr = false → s.recvLen < 4) ∧
        s.header size malloc = s) := by
  unfold RecvMsg.header
  split
  · rename_i hheader
    left
    have hlt : size.toNat < 4294967296 := size.toNat_lt
    have hdata : data.length < UInt32.size :=
      Nat.lt_trans (show data.length < size.toNat by omega) size.toNat_lt_size
    have hcount := size_unixDomainMsg hdata rest hheader.2
    have hsum : (msgHdrLen.toUInt32 + readLe32 s.orgMsg).toNat =
        (unixDomainMsg data).length := by
      have hfour : msgHdrLen.toUInt32.toNat = 4 := rfl
      rw [hcontent, UInt32.toNat_add, hcount, length_unixDomainMsg, hfour]
      exact Nat.mod_eq_of_lt (by omega)
    have hlong : ¬ size < msgHdrLen.toUInt32 + readLe32 s.orgMsg := by
      rw [UInt32.lt_iff_toNat_lt, hsum, length_unixDomainMsg]
      omega
    refine ⟨hheader.1, hheader.2, _, hsum, ?_⟩
    dsimp only
    rw [if_neg hlong]
  · rename_i hheader
    right
    refine ⟨fun hgot => ?_, rfl⟩
    by_contra hmany
    exact hheader ⟨hgot, Nat.not_lt.mp hmany⟩

/-- `recv` yields some bytes of a message that fits. -/
theorem Filling.bytes {rc : Nat} {malloc : Bool}
    (h : Filling buffer data size a) (hfits : 4 + data.length ≤ size.toNat)
    (hret : a.receiver.ret = none) (hcan : a.CanRecv (.bytes rc)) :
    Filling buffer data size
      (a.step (unixDomainMsg data) size (.recv (.bytes rc) malloc)) := by
  obtain ⟨-, -, hsent⟩ := hcan
  have hrunning : a.receiver.ret ≠ some 0 := by
    rw [hret]
    exact nofun
  show Filling buffer data size { a with receiver :=
    ((a.receiver.fill (a.pending _ (.bytes rc))).header size malloc).check }
  rw [fill_pending rc h (hsent.trans h.sent)]
  let s : RecvMsg := { a.receiver with
    orgMsg := (unixDomainMsg data).take (a.receiver.recvLen + rc) ++
      buffer.drop (a.receiver.recvLen + rc)
    recvLen := a.receiver.recvLen + rc }
  have hfilled : Filling buffer data size
      { a with receiver := s.header size malloc } := by
    rcases header_fits s malloc hfits rfl with
      ⟨-, -, msgLen, hmsgLen, hheader⟩ | ⟨hfew, hheader⟩
    · rw [hheader]
      exact ⟨h.sent, hsent, h.own, rfl, fun _ => hmsgLen, nofun,
        fun hdone => absurd hdone hrunning⟩
    · rw [hheader]
      exact ⟨h.sent, hsent, h.own, rfl, h.header,
        fun hgot => ⟨(h.noHeader hgot).1, hfew hgot⟩,
        fun hdone => absurd hdone hrunning⟩
  exact hfilled.check hfits

theorem Filling.recv {r : Round} {malloc : Bool}
    (h : Filling buffer data size a) (hfits : 4 + data.length ≤ size.toNat)
    (hret : a.receiver.ret = none) (hcan : a.CanRecv r) :
    Filling buffer data size
      (a.step (unixDomainMsg data) size (.recv r malloc)) := by
  cases r with
  | bytes rc => exact h.bytes hfits hret hcan
  | again => exact h
  | fails =>
      exact ⟨h.sent, h.received, h.own, h.content, h.header, h.noHeader, nofun⟩
  | shutdown =>
      exact ⟨h.sent, h.received, h.own, h.content, h.header, h.noHeader, nofun⟩

theorem reachable_filling (hfits : 4 + data.length ≤ size.toNat)
    (h : (transfer size buffer data).Reachable a) :
    Filling buffer data size a := by
  refine h.invariant (I := Filling buffer data size) filling_start ?_
  intro e a b hfilling henabled _ hstep
  have hb : a.step (unixDomainMsg data) size e = b := Option.some.inj hstep
  rw [← hb]
  cases e with
  | send r => exact hfilling.send henabled.2.2
  | recv r malloc => exact hfilling.recv hfits henabled.1 henabled.2
  | close =>
      exact ⟨hfilling.sent, hfilling.received, hfilling.own, hfilling.content,
        hfilling.header, hfilling.noHeader, hfilling.whole⟩

theorem sound_of_fits (hfits : 4 + data.length ≤ size.toNat)
    (h : (transfer size buffer data).Reachable a) : Sound data size a where
  whole := by
    intro hret
    have hfilling := reachable_filling hfits h
    have hwhole := hfilling.whole hret
    refine ⟨hwhole, ?_⟩
    rw [hfilling.content, hwhole, List.take_length]
    exact List.prefix_append _ _
  cut := by
    intro r malloc hr
    rcases hr with rfl | rfl
    · rfl
    · rfl

/-! ## Longer messages -/

/-- The whole message was sent. -/
def sentAll (size : UInt32) (buffer data : Bytes) : Transfer :=
  (transfer size buffer data).start.step (unixDomainMsg data) size
    (.send (.bytes (unixDomainMsg data).length))

theorem reachable_sentAll :
    (transfer size buffer data).Reachable (sentAll size buffer data) := by
  have hpos : 0 < (unixDomainMsg data).length := by
    rw [length_unixDomainMsg]
    omega
  have henabled : (transfer size buffer data).enabled
      (.send (.bytes (unixDomainMsg data).length))
      (transfer size buffer data).start :=
    ⟨rfl, rfl, hpos, Nat.le_of_eq (Nat.zero_add _)⟩
  exact .step .start henabled trivial rfl

/-- The receiver, when the first call of `recv` yields the header. -/
theorem first_recv (size : UInt32) (buffer : Bytes)
    (hdata : data.length < UInt32.size) {n : Nat} (hn : 4 ≤ n)
    (hmsg : n ≤ (unixDomainMsg data).length) :
    ∃ msgLen : UInt32, msgLen.toNat = (4 + data.length) % 4294967296 ∧
      ((sentAll size buffer data).step (unixDomainMsg data) size
        (.recv (.bytes n) true)).receiver = RecvMsg.check {
          orgMsg := (unixDomainMsg data).take n ++ buffer.drop n
          rxBuff := if size < msgLen then
            some (((unixDomainMsg data).take n ++ buffer.drop n).take n ++
              List.replicate (msgLen.toNat - n) 0) else none
          recvLen := n
          msgLen
          gotMsgHdr := true } := by
  have hfilling : Filling buffer data size (sentAll size buffer data) :=
    filling_start.send ⟨by rw [length_unixDomainMsg]; omega,
      Nat.le_of_eq (Nat.zero_add _)⟩
  have hzero : (sentAll size buffer data).receiver.recvLen = 0 := rfl
  have hfill := fill_pending n hfilling (by
    rw [hzero, Nat.zero_add]
    exact hmsg)
  rw [hzero, Nat.zero_add] at hfill
  have hcount := size_unixDomainMsg hdata (buffer.drop n) hn
  have hfour : msgHdrLen.toUInt32.toNat = 4 := rfl
  refine ⟨msgHdrLen.toUInt32 +
    readLe32 ((unixDomainMsg data).take n ++ buffer.drop n), ?_, ?_⟩
  · rw [UInt32.toNat_add, hcount, hfour]
  · show (((sentAll size buffer data).receiver.fill _).header size true).check =
      _
    rw [hfill]
    unfold RecvMsg.header
    rw [if_pos ⟨rfl, hn⟩]
    dsimp only
    split
    · rfl
    · rfl

/-- The length of the message overflows: the call returns with the header. -/
theorem overflow_unsound (hsize : 4 ≤ size.toNat)
    (hdata : data.length < UInt32.size)
    (hover : 4294967296 ≤ 4 + data.length) :
    ∃ a, (transfer size buffer data).Reachable a ∧ ¬ Sound data size a := by
  have hlen := length_unixDomainMsg data
  have hlt : data.length < 4294967296 := hdata
  obtain ⟨msgLen, hmsgLen, hreceiver⟩ :=
    first_recv size buffer hdata (Nat.le_refl 4) (by omega)
  have henabled : (transfer size buffer data).enabled
      (.recv (.bytes 4) true) (sentAll size buffer data) := by
    refine ⟨rfl, by omega, ?_, ?_⟩
    · show 0 + 4 ≤ size.toNat
      omega
    · show 0 + 4 ≤ 0 + (unixDomainMsg data).length
      omega
  refine ⟨_, .step reachable_sentAll henabled trivial rfl, fun hsound => ?_⟩
  have hshort : msgLen.toNat ≤ 4 := by omega
  have hwhole := hsound.whole
  rw [hreceiver, RecvMsg.check, if_pos ⟨rfl, hshort⟩] at hwhole
  have hrecvLen : 4 = (unixDomainMsg data).length := (hwhole rfl).1
  omega

/-- The message is longer than the buffer: it is received elsewhere. -/
theorem long_unsound (hbuffer : buffer.length = size.toNat)
    (hsize : 4 ≤ size.toNat) (hlong : size.toNat < 4 + data.length)
    (hfew : 4 + data.length < 4294967296) :
    ∃ a, (transfer size buffer data).Reachable a ∧ ¬ Sound data size a := by
  have hlen := length_unixDomainMsg data
  have hdata : data.length < UInt32.size := by
    show data.length < 4294967296
    omega
  obtain ⟨msgLen, hmsgLen, hreceiver⟩ :=
    first_recv size buffer hdata hsize (by omega)
  rw [Nat.mod_eq_of_lt hfew, ← hlen] at hmsgLen
  have hnew : size < msgLen := by
    rw [UInt32.lt_iff_toNat_lt]
    omega
  have hmore : ¬ msgLen.toNat ≤ size.toNat := by omega
  rw [if_pos hnew, RecvMsg.check, if_neg fun h => hmore h.2] at hreceiver
  -- the buffer is full
  let b : Transfer := (sentAll size buffer data).step (unixDomainMsg data) size
    (.recv (.bytes size.toNat) true)
  have henabled : (transfer size buffer data).enabled
      (.recv (.bytes size.toNat) true) (sentAll size buffer data) := by
    refine ⟨rfl, by omega, ?_, ?_⟩
    · show 0 + size.toNat ≤ size.toNat
      omega
    · show 0 + size.toNat ≤ 0 + (unixDomainMsg data).length
      omega
  have hb : (transfer size buffer data).Reachable b :=
    .step reachable_sentAll henabled trivial rfl
  let rest : Nat := (unixDomainMsg data).length - size.toNat
  have hrecvLen : b.receiver.recvLen = size.toNat := by
    show ((sentAll size buffer data).step _ size _).receiver.recvLen = _
    rw [hreceiver]
  have henabled' : (transfer size buffer data).enabled
      (.recv (.bytes rest) true) b := by
    refine ⟨?_, show 0 < rest by omega, ?_, ?_⟩
    · show ((sentAll size buffer data).step _ size _).receiver.ret = none
      rw [hreceiver]
    · rw [hrecvLen]
      show size.toNat + rest ≤
        ((sentAll size buffer data).step _ size _).receiver.msgLen.toNat
      rw [hreceiver]
      dsimp only
      omega
    · rw [hrecvLen]
      show size.toNat + rest ≤ 0 + (unixDomainMsg data).length
      omega
  have hrest : (((unixDomainMsg data).drop size.toNat).take rest).length =
      rest := by
    rw [List.length_take_of_le]
    rw [List.length_drop]
  refine ⟨_, .step hb henabled' trivial rfl, fun hsound => ?_⟩
  have hwhole := hsound.whole
  have hlast : (b.step (unixDomainMsg data) size
      (.recv (.bytes rest) true)).receiver =
        (((b.receiver.fill (((unixDomainMsg data).drop
          b.receiver.recvLen).take rest)).header size true).check) := rfl
  have hbreceiver : b.receiver = _ := hreceiver
  rw [hlast, hrecvLen, hbreceiver] at hwhole
  unfold RecvMsg.fill at hwhole
  dsimp only at hwhole
  rw [hrest, RecvMsg.header,
    if_neg (fun h => absurd (show true = false from h.1) (by decide)),
    RecvMsg.check, if_pos ⟨rfl, by dsimp only; omega⟩] at hwhole
  obtain ⟨-, hprefix⟩ := hwhole rfl
  have hle := hprefix.length_le
  dsimp only at hle
  rw [List.length_append, List.length_take_of_le (by omega), List.length_drop,
    hbuffer] at hle
  omega

/-- For a buffer of any size that holds a header, and a message of any size:
the receiver is sound in every state of every run if and only if the message
fits the buffer. -/
theorem recv_sound_iff (hsize : 4 ≤ size.toNat)
    (hbuffer : buffer.length = size.toNat) (hdata : data.length < UInt32.size) :
    (∀ a, (transfer size buffer data).Reachable a → Sound data size a) ↔
      4 + data.length ≤ size.toNat := by
  constructor
  · intro hsound
    by_contra hlong
    have hunsound : ∃ a, (transfer size buffer data).Reachable a ∧
        ¬ Sound data size a := by
      by_cases hover : 4 + data.length < 4294967296
      · exact long_unsound hbuffer hsize (by omega) hover
      · exact overflow_unsound hsize hdata (by omega)
    obtain ⟨a, hreach, hnot⟩ := hunsound
    exact hnot (hsound a hreach)
  · intro hfits a hreach
    exact sound_of_fits hfits hreach

/-! ## Six bytes -/

/-- Two bytes were received into a buffer for eight. -/
def twoBytes : Transfer :=
  (sentAll 8 (List.replicate 8 0) [1, 2]).step (unixDomainMsg [1, 2]) 8
    (.recv (.bytes 6) true)

/-- They are there. -/
theorem two_bytes_sound : twoBytes.receiver.ret = some 0 ∧
    Sound [1, 2] 8 twoBytes := by
  have henabled : (transfer 8 (List.replicate 8 0) [1, 2]).enabled
      (.recv (.bytes 6) true) (sentAll 8 (List.replicate 8 0) [1, 2]) :=
    ⟨rfl, by decide, by decide, by decide⟩
  have hreach : (transfer 8 (List.replicate 8 0) [1, 2]).Reachable twoBytes :=
    .step reachable_sentAll henabled trivial rfl
  exact ⟨by decide, (recv_sound_iff (by decide) (by decide) (by decide)).mpr
    (by decide) twoBytes hreach⟩

/-- Two bytes in a buffer for the header: the caller gets no data. -/
theorem two_bytes_lost : ¬ ∀ (size : UInt32) (buffer data : Bytes),
    4 ≤ size.toNat → buffer.length = size.toNat →
    data.length < UInt32.size → ∀ a,
      (transfer size buffer data).Reachable a → Sound data size a := by
  intro hclaim
  have hlong : ∃ a, (transfer 4 [0, 0, 0, 0] [1, 2]).Reachable a ∧
      ¬ Sound [1, 2] 4 a :=
    long_unsound (by decide) (by decide) (by decide) (by decide)
  obtain ⟨a, hreach, hnot⟩ := hlong
  exact hnot (hclaim 4 [0, 0, 0, 0] [1, 2] (by decide) (by decide) (by decide)
    a hreach)

end ChessServer.LibTimer
