/-!
# Reading a file in passes

Pieces of a file are sent one after the other until nothing is left of it,
then a mark that says so, and the next piece begins another pass.  What is
left says what was sent: a pass that is over has sent the whole file, and the
one that goes on what comes before the rest.
-/

namespace Passes

variable {α β : Type}

/-- A pass that is over: pieces and a mark. -/
structure Complete (content : β → List α) (ended : β → Bool) (file : List α)
    (pass : List β) : Prop where
  marked : ∃ (pieces : List β) (mark : β), pass = pieces ++ [mark] ∧
    ended mark = true ∧ ∀ x ∈ pieces, ended x = false
  whole : pass.flatMap content = file

/-- What was sent, and what is left of the file in the pass that goes on. -/
structure Reading (content : β → List α) (ended : β → Bool) (file : List α)
    (rest : Option (List α)) (sent : List β) : Prop where
  split : ∃ (passes : List (List β)) (current : List β),
    sent = passes.flatten ++ current ∧
    (∀ pass ∈ passes, Complete content ended file pass) ∧
    (∀ x ∈ current, ended x = false) ∧
    current.flatMap content ++ rest.getD file = file ∧
    (rest = none ↔ current = [])

variable {content : β → List α} {ended : β → Bool} {file : List α}
  {rest : Option (List α)} {sent : List β}

theorem reading_start : Reading content ended file none [] where
  split := by
    refine ⟨[], [], rfl, nofun, nofun, rfl, ?_⟩
    exact ⟨fun _ => rfl, fun _ => rfl⟩

/-- A piece of what is left, or of the file when a pass begins. -/
theorem Reading.piece (h : Reading content ended file rest sent) {x : β}
    {rest' : List α} (hx : ended x = false)
    (hcontent : content x ++ rest' = rest.getD file) :
    Reading content ended file (some rest') (sent ++ [x]) where
  split := by
    obtain ⟨passes, current, hsent, hpasses, hcurrent, hwhole, -⟩ := h.split
    refine ⟨passes, current ++ [x], ?_, hpasses, fun y hy => ?_, ?_, ?_⟩
    · rw [hsent, List.append_assoc]
    · rcases List.mem_append.mp hy with hy | hy
      · exact hcurrent y hy
      · rw [List.mem_singleton.mp hy]
        exact hx
    · rw [List.flatMap_append, List.flatMap_singleton, Option.getD_some,
        List.append_assoc, hcontent]
      exact hwhole
    · constructor
      · intro hnone
        cases hnone
      · intro hnil
        exact absurd hnil (List.append_ne_nil_of_right_ne_nil _
          (List.cons_ne_nil x []))

/-- The mark, when nothing is left. -/
theorem Reading.mark (h : Reading content ended file rest sent) {x : β}
    (hx : ended x = true) (hcontent : content x = [])
    (hrest : rest.getD file = []) :
    Reading content ended file none (sent ++ [x]) where
  split := by
    obtain ⟨passes, current, hsent, hpasses, hcurrent, hwhole, -⟩ := h.split
    have hpass : Complete content ended file (current ++ [x]) := by
      refine ⟨⟨current, x, rfl, hx, hcurrent⟩, ?_⟩
      rw [List.flatMap_append, List.flatMap_singleton, hcontent]
      rw [hrest] at hwhole
      exact hwhole
    refine ⟨passes ++ [current ++ [x]], [], ?_, fun pass hmem => ?_, nofun, rfl,
      fun _ => rfl, fun _ => rfl⟩
    · rw [hsent, List.flatten_append, List.flatten_singleton, List.append_nil,
        List.append_assoc]
    · rcases List.mem_append.mp hmem with hmem | hmem
      · exact hpasses pass hmem
      · rw [List.mem_singleton.mp hmem]
        exact hpass

end Passes
