import ChessServer.Lib.Rotation
import ChessServer.Model.Acts
import ChessServer.Model.Chairs

/-!
# Whose turn it is

After a move the token goes to the first player PLAYING after the mover, in
the order BOTTOM, RIGHT, LEFT; with nobody left it goes to nobody and the
mover's game is over too.  The server looks at one neighbour only and takes
the other for granted.
-/

namespace ChessServer

/-! ## The ring of chairs -/

/-- The order of the turns. -/
def Seat.next : Seat → Seat
  | .bottom => .right
  | .right => .left
  | .left => .bottom

/-- The chairs after one, once around the table. -/
def Seat.others (seat : Seat) : List Seat := [seat.next, seat.next.next]

theorem Seat.mem_others {a b : Seat} : b ∈ a.others ↔ b ≠ a := by
  cases a <;> cases b <;> simp [Seat.others, Seat.next]

theorem Seat.ring : Rotation.Ring Seat.others where
  others_ne := Seat.mem_others.mp
  rotate := by
    intro a b before after h
    cases before with
    | nil => cases a <;> cases h <;> rfl
    | cons c before =>
        cases before with
        | nil => cases a <;> cases h <;> rfl
        | cons d before => simp [Seat.others] at h

/-- The location that stands for the holder of the token. -/
def announced (holder : Option Seat) : UInt32 :=
  holder.elim locationMax Seat.location

theorem announced_injective {a b : Option Seat}
    (h : announced a = announced b) : a = b := by
  cases a with
  | none =>
      cases b with
      | none => rfl
      | some b => exact absurd h.symm b.location_ne_max
  | some a =>
      cases b with
      | none => exact absurd h a.location_ne_max
      | some b => exact congrArg some (Seat.location_injective h)

namespace Table

/-- The first player PLAYING after a chair. -/
def successor (t : Table) (seat : Seat) : Option Seat :=
  seat.others.find? t.isPlaying

/-- What `MoveChessHandle` announces after a move from a chair. -/
def token (t : Table) (seat : Seat) : UInt32 :=
  if t.active > 1 then
    if t.isPlaying seat.next then seat.next.location
    else seat.next.next.location
  else locationMax

theorem successor_ne {t : Table} {a b : Seat}
    (h : t.successor a = some b) : b ≠ a ∧ t.isPlaying b = true :=
  ⟨Seat.mem_others.mp (List.mem_of_find?_eq_some h), List.find?_some h⟩

theorem successor_eq_none {t : Table} {a : Seat} :
    t.successor a = none ↔ ∀ b, b ≠ a → t.isPlaying b = false := by
  simp only [successor, List.find?_eq_none, Seat.mem_others,
    Bool.not_eq_true]

theorem successor_eq (t : Table) (seat : Seat) :
    t.successor seat =
      if t.isPlaying seat.next then some seat.next
      else if t.isPlaying seat.next.next then some seat.next.next
      else none := by
  unfold successor Seat.others
  cases hfirst : t.isPlaying seat.next with
  | true => simp [hfirst]
  | false => cases hsecond : t.isPlaying seat.next.next <;> simp [hfirst, hsecond]

/-- Somebody who is PLAYING is alone or has a successor. -/
theorem active_of_successor {t : Table} {a : Seat}
    (h : t.isPlaying a = true) :
    t.active > 1 ↔ t.successor a ≠ none := by
  have hactive : t.active = 1 + (t.isPlaying a.next).toNat +
      (t.isPlaying a.next.next).toNat := by
    rw [active_eq]
    cases a <;> simp only [Seat.next, h, Bool.toNat_true] <;> omega
  rw [hactive, successor_eq]
  cases t.isPlaying a.next <;> cases t.isPlaying a.next.next <;> simp

/-- The neighbour that the server takes for granted is the right one. -/
theorem token_eq {t : Table} {seat : Seat} (h : t.isPlaying seat = true) :
    t.token seat = announced (t.successor seat) := by
  have hactive := active_of_successor h
  unfold token
  rw [successor_eq] at hactive ⊢
  cases hfirst : t.isPlaying seat.next with
  | true =>
      rw [if_pos (hactive.mpr (by simp [hfirst]))]
      rfl
  | false =>
      cases hsecond : t.isPlaying seat.next.next with
      | true =>
          rw [if_pos (hactive.mpr (by simp [hfirst, hsecond]))]
          rfl
      | false =>
          rw [if_neg fun h => hactive.mp h (by simp [hfirst, hsecond])]
          rfl

/-! ## Moves -/

theorem isPlaying_modifyAt {f : Player → Player}
    (hf : ∀ p, (f p).status ≠ .playing) (t : Table) (locate : Location)
    (seat : Seat) : (t.modifyAt locate f).isPlaying seat =
      (t.isPlaying seat && !(locate == seat.location)) := by
  unfold modifyAt
  cases hlocate : seatAt locate with
  | none =>
      have hne : locate ≠ seat.location := by
        rintro rfl
        rw [seatAt_location] at hlocate
        cases hlocate
      simp [hne]
  | some changed =>
      obtain rfl := seatAt_eq_some_iff.mp hlocate
      rw [isPlaying, passes_modify]
      by_cases heq : seat = changed
      · subst heq
        cases t.players seat <;> simp [hf]
      · have hne : changed.location ≠ seat.location := fun h =>
          heq (Seat.location_injective h).symm
        simp [heq, hne, isPlaying]

theorem isPlaying_modifyAt_keep {f : Player → Player}
    (hf : ∀ p, (f p).status = p.status) (t : Table) (locate : Location)
    (seat : Seat) : (t.modifyAt locate f).isPlaying seat = t.isPlaying seat := by
  unfold modifyAt
  split
  · rw [isPlaying, passes_modify]
    split
    · rename_i heq
      subst heq
      rw [isPlaying, passes_eq]
      simp only [hf]
    · rfl
  · rfl

theorem isPlaying_capture (t : Table) (m : MoveChess) (seat : Seat) :
    (t.capture m).isPlaying seat =
      (t.isPlaying seat && !(m.isWinner && m.targetLocate == seat.location)) := by
  unfold capture
  cases m.isWinner with
  | false =>
      simp only [Bool.false_eq_true, if_false, Bool.false_and, Bool.not_false,
        Bool.and_true]
      rfl
  | true =>
      simp only [if_true, Bool.true_and]
      rw [isPlaying_modifyAt (by simp),
        isPlaying_modifyAt_keep (gain_status 10)]
      rfl

/-- A move takes nobody in. -/
theorem isPlaying_of_move {t : Table} {m : MoveChess} {seat : Seat}
    (h : (t.move m).isPlaying seat = true) : t.isPlaying seat = true := by
  have hcapture : (t.capture m).isPlaying seat = true := by
    unfold move at h
    dsimp only at h
    split at h
    · exact h
    · rw [isPlaying_modifyAt (by simp), Bool.and_eq_true] at h
      exact h.1
  rw [isPlaying_capture, Bool.and_eq_true] at hcapture
  exact hcapture.1

/-- After a move by somebody who stays in the game. -/
theorem move_turn {t : Table} {m : MoveChess} {seat : Seat}
    (hsrc : m.srcLocate = seat.location)
    (hplaying : (t.capture m).isPlaying seat = true) :
    (t.capture m).token seat = announced ((t.move m).successor seat) ∧
      ((t.move m).successor seat = none →
        ∀ r, (t.move m).isPlaying r = false) ∧ (t.move m).active ≠ 1 := by
  rw [token_eq hplaying]
  have hkeep : ∀ r, r ≠ seat →
      (t.move m).isPlaying r = (t.capture m).isPlaying r := by
    intro r hr
    unfold move
    dsimp only
    split
    · rfl
    · have hne : seat.location ≠ r.location := fun h =>
        hr (Seat.location_injective h).symm
      rw [isPlaying_modifyAt (by simp), hsrc]
      simp [hne]
  have hsame : (t.move m).successor seat = (t.capture m).successor seat := by
    rw [successor_eq, successor_eq, hkeep seat.next, hkeep seat.next.next]
    · cases seat <;> decide
    · cases seat <;> decide
  have hover : (t.move m).successor seat = none →
      ∀ r, (t.move m).isPlaying r = false := by
    intro hnone r
    by_cases hr : r = seat
    · subst hr
      have hactive : ¬ (t.capture m).active > 1 := by
        rw [active_of_successor hplaying, ← hsame, hnone]
        simp
      unfold move
      dsimp only
      rw [if_neg hactive, isPlaying_modifyAt (by simp), hsrc]
      simp
    · exact successor_eq_none.mp hnone r hr
  refine ⟨by rw [hsame], hover, ?_⟩
  by_cases hnone : (t.move m).successor seat = none
  · simp [active_eq, hover hnone]
  · rw [hsame] at hnone
    have hactive := (active_of_successor hplaying).mpr hnone
    unfold move
    dsimp only
    rw [if_pos hactive]
    omega

/-! ## Who is out of the game -/

/-- Somebody who is not PLAYING leaves, or gives up once more. -/
theorem isPlaying_out {t : Table} {seat : Seat} (h : t.isPlaying seat = false)
    (hactive : t.active ≠ 1) (r : Seat) :
    (t.leave seat).isPlaying r = t.isPlaying r ∧
      (t.reject seat).isPlaying r = t.isPlaying r ∧
      (t.surrender seat).isPlaying r = t.isPlaying r := by
  have hvacate : ∀ r, (t.vacate seat).isPlaying r = t.isPlaying r := by
    intro r
    rw [isPlaying, passes_vacate]
    split
    · rename_i heq
      subst heq
      exact h.symm
    · rfl
  have hmark : ∀ (status : UserGameStatus), status ≠ .playing → ∀ r,
      (t.modify seat (setStatus status)).isPlaying r = t.isPlaying r := by
    intro status hstatus r
    rw [isPlaying, passes_modify]
    split
    · rename_i heq
      subst heq
      rw [h]
      cases t.players r with
      | none => rfl
      | some p => simpa using hstatus
    · rfl
  have hcrown : ∀ t' : Table, (∀ r, t'.isPlaying r = t.isPlaying r) →
      t'.crown.isPlaying r = t.isPlaying r := by
    intro t' hsame
    have hcount : t'.active = t.active := by
      rw [active_eq, active_eq, hsame, hsame, hsame]
    unfold crown
    rw [if_neg (by rw [hcount]; exact hactive)]
    exact hsame r
  constructor
  · unfold leave
    simp only [h, Bool.false_eq_true, if_false]
    exact hcrown _ hvacate
  · constructor
    · unfold reject leave
      rw [hmark _ (by decide), h]
      simp only [Bool.false_eq_true, if_false]
      apply hcrown
      intro r
      rw [← hvacate r]
      rw [isPlaying, isPlaying, passes_vacate, passes_vacate]
      split
      · rfl
      · rename_i hne
        rw [passes_modify, if_neg hne]
    · unfold surrender
      rw [h]
      simp only [Bool.false_eq_true, if_false]
      exact hcrown _ (hmark _ (by decide))

end Table

/-! ## Fair acts -/

/-- A move by the holder of the token, of its own chair, that captures at
most another player PLAYING; or a captured player gives up or leaves. -/
def Act.fair (token : UInt32) (t : Table) : Act → Bool
  | .move m => m.srcLocate == token && (!m.isWinner ||
      (m.targetLocate != token && (seatAt m.targetLocate).any t.isPlaying))
  | .leave seat | .reject seat | .surrender seat =>
      t.status seat == some .ended
  | _ => false

/-- The chair that a move names. -/
def Act.turn : Act → Option Seat
  | .move m => seatAt m.srcLocate
  | _ => none

/-- It is the turn of `next`: that player is PLAYING, and not alone; or the
game is over. -/
structure Table.Awaits (t : Table) (next : Option Seat) : Prop where
  holder : ∀ seat, next = some seat → t.isPlaying seat = true
  finished : next = none → ∀ seat, t.isPlaying seat = false
  company : t.active ≠ 1

namespace Table.Awaits

variable {t : Table} {next : Option Seat}

/-- The turn of the holder of the token. -/
theorem move (h : t.Awaits next) {m : MoveChess} {seat : Seat}
    (hsrc : m.srcLocate = seat.location)
    (hfair : (Act.move m).fair (announced next) t = true) :
    next = some seat ∧
      (t.capture m).token seat = announced ((t.move m).successor seat) ∧
      (t.move m).Awaits ((t.move m).successor seat) := by
  simp only [Act.fair, Bool.and_eq_true, beq_iff_eq, Bool.or_eq_true,
    Bool.not_eq_true', bne_iff_ne] at hfair
  obtain ⟨hholder, htarget⟩ := hfair
  rw [hsrc] at hholder
  have hnext : next = some seat :=
    announced_injective (hholder.symm : announced next = announced (some seat))
  have hplaying : (t.capture m).isPlaying seat = true := by
    rw [isPlaying_capture, h.holder seat hnext, Bool.true_and]
    rcases htarget with hno | ⟨hother, _⟩
    · simp [hno]
    · rw [← hholder] at hother
      simp [hother]
  obtain ⟨htoken, hover, hcompany⟩ := move_turn hsrc hplaying
  exact ⟨hnext, htoken, fun r hr => (successor_ne hr).2, hover, hcompany⟩

/-- Any other fair act leaves everybody in the game who is in it. -/
theorem other (h : t.Awaits next) {a : Act} (ha : ∀ m, a ≠ .move m)
    (hfair : a.fair (announced next) t = true) :
    (∀ r, (a.apply t).isPlaying r = t.isPlaying r) ∧
      (a.apply t).Awaits next := by
  have hout : ∀ seat, t.status seat = some .ended →
      t.isPlaying seat = false := by
    intro seat hended
    simp [isPlaying, passes, hended]
  have hsame : ∀ r, (a.apply t).isPlaying r = t.isPlaying r := by
    intro r
    cases a with
    | leave seat =>
        exact (isPlaying_out (hout seat (by simpa [Act.fair] using hfair))
          h.company r).1
    | reject seat =>
        exact (isPlaying_out (hout seat (by simpa [Act.fair] using hfair))
          h.company r).2.1
    | surrender seat =>
        exact (isPlaying_out (hout seat (by simpa [Act.fair] using hfair))
          h.company r).2.2
    | move m => exact absurd rfl (ha m)
    | _ => cases hfair
  refine ⟨hsame, fun seat hseat => ?_, fun hnone seat => ?_, ?_⟩
  · rw [hsame]
    exact h.holder seat hseat
  · rw [hsame]
    exact h.finished hnone seat
  · rw [active_eq, hsame, hsame, hsame, ← active_eq]
    exact h.company

end Table.Awaits

end ChessServer
