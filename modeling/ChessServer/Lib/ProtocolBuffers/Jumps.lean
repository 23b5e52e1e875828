import ChessServer.Lib.ProtocolBuffers

/-!
# The jumps of the generated parser

At the end of the case of a field the generated parser expects the next field,
in the order of the numbers, and jumps into its case past the `switch`.
`mergePartial_eq` says that it computes what the loop without jumps computes,
on any stream.  The parser follows the number in each tag and the jumps the
order of the fields: a `View` is how far the latter have come.
-/

namespace ProtocolBuffers

variable {U S M : Type} {lib : Runtime U S}

/-! ## Bytes that were read -/

/-- A round that takes no bytes back. -/
def Runtime.OnwardRound (lib : Runtime U S)
    (round : Nat → M → S → Option (Round M S)) : Prop :=
  ∀ tag m s r, round tag m s = some r → lib.unread r.stream ≤ lib.unread s

theorem makeTag_ne_zero {num wireType : Nat} (h : IsTag num wireType) :
    makeTag num wireType ≠ 0 := by
  have hpos := h.1
  unfold makeTag
  omega

/-- A tag that was expected is a byte. -/
theorem expectTag_lt (hlib : lib.Reads) {num wireType : Nat} {s s' : S}
    (htag : IsTag num wireType)
    (h : lib.expectTag (makeTag num wireType) s = some s') :
    lib.unread s' < lib.unread s := by
  have hread := hlib.expectTag_eq htag h
  have hlt := @Runtime.Reads.readTag_lt _ _ _ hlib s
  rw [hread] at hlt
  exact hlt (makeTag_ne_zero htag)

theorem readSlot_onward (hlib : lib.Reads) {parse : M → S → Option (M × S)}
    (h : lib.Onward parse) (clear : M) (label : Label) :
    lib.Onward (readSlot lib parse clear label) := by
  intro slot s r hr
  obtain ⟨r', hr', rfl⟩ := Option.map_eq_some_iff.mp hr
  exact hlib.readMessage_onward h _ _ _ hr'

theorem again_onward (hlib : lib.Reads) {num wireType : Nat}
    (htag : IsTag num wireType) {read : M → S → Option (M × S)}
    (h : lib.Onward read) (fuel : Nat) :
    lib.Onward (again lib (makeTag num wireType) read fuel) := by
  induction fuel with
  | zero =>
      intro slot s r hr
      cases hr
      exact Nat.le_refl _
  | succ fuel ih =>
      intro slot s r hr
      unfold again at hr
      cases hexpect : lib.expectTag (makeTag num wireType) s with
      | none =>
          rw [hexpect] at hr
          cases hr
          exact Nat.le_refl _
      | some s' =>
          have hlt := expectTag_lt hlib htag hexpect
          rw [hexpect, Option.elim_some] at hr
          obtain ⟨r', hr', hr⟩ := Option.bind_eq_some_iff.mp hr
          have hread := h _ _ _ hr'
          have hrest := ih _ _ _ hr
          omega

/-- The case of a field takes no bytes back. -/
theorem readField_onward (hlib : lib.Reads) {num : Nat} (htag : IsTag num 2)
    {parse : M → S → Option (M × S)} (h : lib.Onward parse) (clear : M)
    (label : Label) :
    lib.Onward (readField lib parse clear num label) := by
  intro slot s r hr
  obtain ⟨r', hr', hr⟩ := Option.bind_eq_some_iff.mp hr
  have hslot := readSlot_onward hlib h clear label
  have hle := hslot _ _ _ hr'
  dsimp only at hr
  split at hr
  · exact Nat.le_trans (again_onward hlib htag hslot _ _ _ _ hr) hle
  · cases hr
    exact hle

/-- The round of a part of the fields. -/
theorem map_le {N : Type} {f : M → N} {s : S} {o : Option (Round M S)}
    (h : ∀ r, o = some r → lib.unread r.stream ≤ lib.unread s)
    {r : Round N S} (hr : o.map (Round.map f) = some r) :
    lib.unread r.stream ≤ lib.unread s := by
  obtain ⟨r', hr', rfl⟩ := Option.map_eq_some_iff.mp hr
  exact h r' hr'

theorem uninterpreted_le (hlib : lib.Reads) {tag : Nat} {d : Desc}
    {m : d.Message U} {s : S} {r : Round (d.Message U) S}
    (h : d.uninterpreted lib tag m s = some r) :
    lib.unread r.stream ≤ lib.unread s := by
  induction d with
  | nil =>
      unfold Desc.uninterpreted at h
      split at h
      · cases h
        exact Nat.le_refl _
      · obtain ⟨r', hr', rfl⟩ := Option.map_eq_some_iff.mp h
        exact hlib.skipField_le hr'
  | scalar num required type d ih => exact map_le (fun _ => ih) h
  | message num label sub d _ ih => exact map_le (fun _ => ih) h

/-! ## Enough fuel -/

theorem loop_onward (hlib : lib.Reads)
    {round : Nat → M → S → Option (Round M S)} (h : lib.OnwardRound round)
    (fuel : Nat) : lib.Onward (loop lib round fuel) := by
  induction fuel with
  | zero =>
      intro m s r hr
      cases hr
  | succ fuel ih =>
      intro m s r hr
      unfold loop at hr
      have hle := hlib.readTag_le s
      split at hr
      · cases hr
        exact hle
      · obtain ⟨r', hr', hr⟩ := Option.bind_eq_some_iff.mp hr
        have hround := h _ _ _ _ hr'
        split at hr
        · cases hr
          exact Nat.le_trans hround hle
        · have hrest := ih _ _ _ hr
          omega

/-- Fuel beyond the bytes that are left changes nothing. -/
theorem loop_fuel (hlib : lib.Reads)
    {round : Nat → M → S → Option (Round M S)} (h : lib.OnwardRound round)
    {n k : Nat} {m : M} {s : S} (hn : lib.unread s < n)
    (hk : lib.unread s < k) : loop lib round n m s = loop lib round k m s := by
  induction n generalizing k m s with
  | zero => exact absurd hn (Nat.not_lt_zero _)
  | succ n ih =>
      cases k with
      | zero => exact absurd hk (Nat.not_lt_zero _)
      | succ k =>
          unfold loop
          by_cases htag : (lib.readTag s).1 = 0
          · rw [if_pos htag, if_pos htag]
          · have hlt := hlib.readTag_lt htag
            rw [if_neg htag, if_neg htag]
            cases hr : round (lib.readTag s).1 m (lib.readTag s).2 with
            | none => rfl
            | some r =>
                have hround := h _ _ _ _ hr
                have hrest : loop lib round n r.message r.stream =
                    loop lib round k r.message r.stream :=
                  ih (by omega) (by omega)
                simp only [Option.bind_eq_bind, Option.bind_some]
                rw [hrest]

/-- The loop, without mention of fuel. -/
theorem run_eq (hlib : lib.Reads) {round : Nat → M → S → Option (Round M S)}
    (h : lib.OnwardRound round) (m : M) (s : S) :
    run lib round m s =
      if (lib.readTag s).1 = 0 then some (m, (lib.readTag s).2)
      else (round (lib.readTag s).1 m (lib.readTag s).2).bind fun r =>
        if r.returned then some (r.message, r.stream)
        else run lib round r.message r.stream := by
  unfold run
  rw [loop]
  by_cases htag : (lib.readTag s).1 = 0
  · rw [if_pos htag, if_pos htag]
  · have hlt := hlib.readTag_lt htag
    rw [if_neg htag, if_neg htag]
    cases hr : round (lib.readTag s).1 m (lib.readTag s).2 with
    | none => rfl
    | some r =>
        have hround := h _ _ _ _ hr
        have hrest : loop lib round (lib.unread s) r.message r.stream =
            loop lib round (lib.unread r.stream + 1) r.message r.stream :=
          loop_fuel hlib h (by omega) (Nat.lt_succ_self _)
        simp only [Option.bind_eq_bind, Option.bind_some]
        rw [hrest]

/-! ## No parser takes bytes back -/

theorem lawful_scalar {num : Nat} {required : Bool} {type : Scalar} {d : Desc}
    (h : (Desc.scalar num required type d).lawful = true) :
    IsTag num type.wireType ∧ num ∉ d.nums ∧ d.lawful = true := by
  rw [Desc.lawful, Bool.and_eq_true, decide_eq_true_eq] at h
  obtain ⟨⟨hpos, hnum, hnot⟩, hrest⟩ := h
  have hwire : type.wireType < 8 := by
    cases type <;> decide
  exact ⟨⟨hpos, hnum, hwire⟩, hnot, hrest⟩

theorem lawful_message {num : Nat} {label : Label} {sub d : Desc}
    (h : (Desc.message num label sub d).lawful = true) :
    IsTag num 2 ∧ num ∉ d.nums ∧ sub.lawful = true ∧ d.lawful = true := by
  rw [Desc.lawful, Bool.and_eq_true, Bool.and_eq_true, decide_eq_true_eq] at h
  obtain ⟨⟨⟨hpos, hnum, hnot⟩, hsub⟩, hrest⟩ := h
  exact ⟨⟨hpos, hnum, by decide⟩, hnot, hsub, hrest⟩

/-- A field is read, and what follows its case is done. -/
theorem case_le {A N : Type} {f : A → M → N} {read : Option (A × S)}
    {next : S → Option (Round M S)} {s : S}
    (hread : ∀ r, read = some r → lib.unread r.2 ≤ lib.unread s)
    (hnext : ∀ s r, next s = some r → lib.unread r.stream ≤ lib.unread s)
    {r : Round N S}
    (h : (read.bind fun r => (next r.2).map (Round.map (f r.1))) = some r) :
    lib.unread r.stream ≤ lib.unread s := by
  obtain ⟨r', hr', h⟩ := Option.bind_eq_some_iff.mp h
  have hle := hread r' hr'
  have hrest := map_le (hnext r'.2) h
  exact Nat.le_trans hrest hle

/-- A jump that is not taken leaves the stream as it is. -/
theorem expectTag_elim_le (hlib : lib.Reads) {num wireType : Nat}
    (htag : IsTag num wireType) {m : M} {s : S}
    {next : S → Option (Round M S)}
    (hnext : ∀ s r, next s = some r → lib.unread r.stream ≤ lib.unread s)
    {r : Round M S}
    (h : (lib.expectTag (makeTag num wireType) s).elim (some ⟨m, s, false⟩)
      next = some r) :
    lib.unread r.stream ≤ lib.unread s := by
  cases hexpect : lib.expectTag (makeTag num wireType) s with
  | none =>
      rw [hexpect] at h
      cases h
      exact Nat.le_refl _
  | some s' =>
      have hlt := expectTag_lt hlib htag hexpect
      rw [hexpect, Option.elim_some] at h
      have hrest := hnext s' r h
      omega

theorem readTag_expectAtEnd_le (hlib : lib.Reads) {s s' : S}
    (h : lib.expectAtEnd s = some s') : lib.unread s' ≤ lib.unread s := by
  have hle := hlib.readTag_le s
  rwa [hlib.expectAtEnd_eq h] at hle

/-- The `switch`, and what follows its cases. -/
theorem rounds_le (hlib : lib.Reads) {d : Desc} (hlaw : d.lawful = true) :
    (∀ m s r, d.expect lib m s = some r →
      lib.unread r.stream ≤ lib.unread s) ∧
      lib.OnwardRound (d.mergeCase lib) := by
  induction d with
  | nil =>
      constructor
      · intro x s r h
        unfold Desc.expect at h
        cases hexpect : lib.expectAtEnd s with
        | none =>
            rw [hexpect] at h
            cases h
            exact Nat.le_refl _
        | some s' =>
            rw [hexpect] at h
            cases h
            exact readTag_expectAtEnd_le hlib hexpect
      · intro tag x s r h
        unfold Desc.mergeCase at h
        exact uninterpreted_le hlib h
  | scalar num required type d ih =>
      obtain ⟨htag, _, hrest⟩ := lawful_scalar hlaw
      obtain ⟨hexpect, hcase⟩ := ih hrest
      have hfield : ∀ (m : (Desc.scalar num required type d).Message U) s r,
          ((lib.read type s).bind fun r => (d.expect lib m.2 r.2).map
            (Round.map fun y => (some r.1, y))) = some r →
          lib.unread r.stream ≤ lib.unread s :=
        fun m s r h => case_le (A := type.Value) (f := fun v y => (some v, y))
          (fun _ => hlib.read_le) (hexpect m.2) h
      constructor
      · intro m s r h
        unfold Desc.expect at h
        exact expectTag_elim_le hlib htag (hfield m) h
      · intro tag m s r h
        unfold Desc.mergeCase at h
        split at h
        · split at h
          · exact hfield m s r h
          · exact uninterpreted_le hlib h
        · exact map_le (hcase tag m.2 s) h
  | message num label sub d ihsub ih =>
      obtain ⟨htag, _, hsub, hrest⟩ := lawful_message hlaw
      obtain ⟨hexpect, hcase⟩ := ih hrest
      have hparse : lib.Onward (run lib (sub.mergeCase lib)) :=
        fun m s => loop_onward hlib (ihsub hsub).2 (lib.unread s + 1) m s
      have hread := readField_onward hlib htag hparse (sub.clear lib) label
      have hfield : ∀ (m : (Desc.message num label sub d).Message U) s r,
          ((readField lib (run lib (sub.mergeCase lib)) (sub.clear lib) num
            label m.1 s).bind fun r => (d.expect lib m.2 r.2).map
              (Round.map fun y => (r.1, y))) = some r →
          lib.unread r.stream ≤ lib.unread s :=
        fun m s r h => case_le (hread m.1 s) (hexpect m.2) h
      constructor
      · intro m s r h
        unfold Desc.expect at h
        exact expectTag_elim_le hlib htag (hfield m) h
      · intro tag m s r h
        unfold Desc.mergeCase at h
        split at h
        · split at h
          · exact hfield m s r h
          · exact uninterpreted_le hlib h
        · exact map_le (hcase tag m.2 s) h

/-- The generated parser takes no bytes back. -/
theorem mergePartial_onward (hlib : lib.Reads) {d : Desc}
    (hlaw : d.lawful = true) : lib.Onward (d.mergePartial lib) :=
  fun m s => loop_onward hlib (rounds_le hlib hlaw).2 (lib.unread s + 1) m s

/-- The plain loop, with the generated parser for the messages in a message. -/
def Desc.plain (lib : Runtime U S) (d : Desc) : d.Message U → S →
    Option (d.Message U × S) :=
  run lib (d.mergeField lib fun d => d.mergePartial lib)

/-- A round of the plain loop takes no bytes back. -/
theorem mergeField_onward (hlib : lib.Reads) {d : Desc}
    (hlaw : d.lawful = true) :
    lib.OnwardRound (d.mergeField lib fun d => d.mergePartial lib) := by
  induction d with
  | nil =>
      intro tag x s r h
      exact uninterpreted_le hlib h
  | scalar num required type d ih =>
      obtain ⟨_, _, hrest⟩ := lawful_scalar hlaw
      intro tag m s r h
      unfold Desc.mergeField at h
      split at h
      · split at h
        · obtain ⟨r', hr', rfl⟩ := Option.map_eq_some_iff.mp h
          exact hlib.read_le hr'
        · exact uninterpreted_le hlib h
      · exact map_le (ih hrest tag m.2 s) h
  | message num label sub d _ ih =>
      obtain ⟨_, _, hsub, hrest⟩ := lawful_message hlaw
      intro tag m s r h
      unfold Desc.mergeField at h
      split at h
      · split at h
        · obtain ⟨r', hr', rfl⟩ := Option.map_eq_some_iff.mp h
          exact readSlot_onward hlib (mergePartial_onward hlib hsub) _ _
            _ _ _ hr'
        · exact uninterpreted_le hlib h
      · exact map_le (ih hrest tag m.2 s) h

/-- The plain loop, without mention of fuel. -/
theorem plain_eq (hlib : lib.Reads) {d : Desc} (hlaw : d.lawful = true)
    (m : d.Message U) (s : S) :
    d.plain lib m s =
      if (lib.readTag s).1 = 0 then some (m, (lib.readTag s).2)
      else (d.mergeField lib (fun d => d.mergePartial lib) (lib.readTag s).1 m
          (lib.readTag s).2).bind fun r =>
        if r.returned then some (r.message, r.stream)
        else d.plain lib r.message r.stream :=
  run_eq hlib (mergeField_onward hlib hlaw) m s

/-! ## How far the jumps have come -/

/-- The fields `d` are the last ones of the fields `D`: what they read is a
part of a message of `D`. -/
structure View (lib : Runtime U S) (D d : Desc) where
  get : D.Message U → d.Message U
  set : D.Message U → d.Message U → D.Message U
  get_set : ∀ M m, get (set M m) = m
  set_set : ∀ M m m', set (set M m) m' = set M m'
  set_get : ∀ M, set M (get M) = M
  nums : ∀ {num}, num ∈ d.nums → num ∈ D.nums
  field : ∀ tag M s, lib.getTagFieldNumber tag ∈ d.nums →
    D.mergeField lib (fun d => d.mergePartial lib) tag M s =
      (d.mergeField lib (fun d => d.mergePartial lib) tag (get M) s).map
        (Round.map (set M))

variable {D d e : Desc}

/-- All of the fields. -/
def View.all (lib : Runtime U S) (d : Desc) : View lib d d where
  get M := M
  set _ m := m
  get_set _ _ := rfl
  set_set _ _ _ := rfl
  set_get _ := rfl
  nums h := h
  field tag M s _ := by
    cases d.mergeField lib (fun d => d.mergePartial lib) tag M s <;> rfl

/-- The last ones of the last ones. -/
def View.comp (V : View lib D d) (W : View lib d e) : View lib D e where
  get M := W.get (V.get M)
  set M m := V.set M (W.set (V.get M) m)
  get_set M m := by rw [V.get_set, W.get_set]
  set_set M m m' := by rw [V.get_set, V.set_set, W.set_set]
  set_get M := by rw [W.set_get, V.set_get]
  nums h := V.nums (W.nums h)
  field tag M s htag := by
    rw [V.field tag M s (W.nums htag), W.field tag _ s htag, Option.map_map]
    rfl

/-- The fields after a scalar one. -/
def View.scalarTail {num : Nat} {required : Bool} {type : Scalar}
    (hnum : num ∉ d.nums) : View lib (.scalar num required type d) d where
  get m := m.2
  set m y := (m.1, y)
  get_set _ _ := rfl
  set_set _ _ _ := rfl
  set_get _ := rfl
  nums h := List.mem_cons_of_mem num h
  field tag m s htag := by
    have hne : lib.getTagFieldNumber tag ≠ num := fun heq => hnum (heq ▸ htag)
    rw [Desc.mergeField, if_neg hne]

/-- The fields after a message. -/
def View.messageTail {num : Nat} {label : Label} {sub : Desc}
    (hnum : num ∉ d.nums) : View lib (.message num label sub d) d where
  get m := m.2
  set m y := (m.1, y)
  get_set _ _ := rfl
  set_set _ _ _ := rfl
  set_get _ := rfl
  nums h := List.mem_cons_of_mem num h
  field tag m s htag := by
    have hne : lib.getTagFieldNumber tag ≠ num := fun heq => hnum (heq ▸ htag)
    rw [Desc.mergeField, if_neg hne]

theorem View.get_comp (V : View lib D d) (W : View lib d e) (M : D.Message U)
    (m : d.Message U) : (V.comp W).get (V.set M m) = W.get m := by
  show W.get (V.get (V.set M m)) = W.get m
  rw [V.get_set]

theorem View.set_comp (V : View lib D d) (W : View lib d e) (M : D.Message U)
    (m : d.Message U) (y : e.Message U) :
    (V.comp W).set (V.set M m) y = V.set M (W.set m y) := by
  show V.set (V.set M m) (W.set (V.get (V.set M m)) y) = V.set M (W.set m y)
  rw [V.set_set, V.get_set]

/-! ## Jumps are rounds -/

/-- Going on with the plain loop. -/
def View.resume (V : View lib D d) (M : D.Message U)
    (r : Round (d.Message U) S) : Option (D.Message U × S) :=
  if r.returned then some (V.set M r.message, r.stream)
  else D.plain lib (V.set M r.message) r.stream

/-- A tag of one of the fields makes the loop read that field. -/
theorem View.step (V : View lib D d) (hlib : lib.Reads)
    (hlaw : D.lawful = true) {num wireType : Nat} (hmem : num ∈ d.nums)
    (htag : IsTag num wireType) {s s' : S}
    (hread : lib.readTag s = (makeTag num wireType, s')) (M : D.Message U) :
    D.plain lib M s =
      (d.mergeField lib (fun d => d.mergePartial lib) (makeTag num wireType)
        (V.get M) s').bind (V.resume M) := by
  have hmem' : lib.getTagFieldNumber (makeTag num wireType) ∈ d.nums := by
    rwa [hlib.getTagFieldNumber_eq htag]
  rw [plain_eq hlib hlaw, hread]
  dsimp only
  rw [if_neg (makeTag_ne_zero htag), V.field _ _ _ hmem', Option.bind_map]
  rfl

/-- One value, by the `switch`. -/
theorem View.step_scalar (hlib : lib.Reads) (hlaw : D.lawful = true)
    {num : Nat} {required : Bool} {type : Scalar}
    (V : View lib D (.scalar num required type d))
    (htag : IsTag num type.wireType) {s s' : S}
    (hread : lib.readTag s = (makeTag num type.wireType, s'))
    (M : D.Message U) :
    D.plain lib M s = (lib.read type s').bind fun r =>
      D.plain lib (V.set M (some r.1, (V.get M).2)) r.2 := by
  have hmem : num ∈ (Desc.scalar num required type d).nums :=
    List.mem_cons_self
  rw [V.step hlib hlaw hmem htag hread, Desc.mergeField,
    if_pos (hlib.getTagFieldNumber_eq htag),
    if_pos (hlib.getTagWireType_eq htag), Option.bind_map]
  rfl

/-- One message of a field, by the `switch`. -/
theorem View.step_message (hlib : lib.Reads) (hlaw : D.lawful = true)
    {num : Nat} {label : Label} {sub : Desc}
    (V : View lib D (.message num label sub d)) (htag : IsTag num 2) {s s' : S}
    (hread : lib.readTag s = (makeTag num 2, s')) (M : D.Message U) :
    D.plain lib M s =
      (readSlot lib (sub.mergePartial lib) (sub.clear lib) label (V.get M).1
        s').bind fun r => D.plain lib (V.set M (r.1, (V.get M).2)) r.2 := by
  have hmem : num ∈ (Desc.message num label sub d).nums := List.mem_cons_self
  rw [V.step hlib hlaw hmem htag hread, Desc.mergeField,
    if_pos (hlib.getTagFieldNumber_eq htag),
    if_pos (hlib.getTagWireType_eq htag), Option.bind_map]
  rfl

/-- The jumps back into the case of a repeated field are rounds of the loop. -/
theorem View.again_eq (hlib : lib.Reads) (hlaw : D.lawful = true) {num : Nat}
    {label : Label} {sub : Desc} (V : View lib D (.message num label sub d))
    (htag : IsTag num 2) (M : D.Message U) (y : d.Message U) (fuel : Nat)
    (slot : label.Slot (sub.Message U)) (s : S) :
    ((again lib (makeTag num 2)
        (readSlot lib (sub.mergePartial lib) (sub.clear lib) label) fuel slot
        s).bind fun r => D.plain lib (V.set M (r.1, y)) r.2) =
      D.plain lib (V.set M (slot, y)) s := by
  induction fuel generalizing slot s with
  | zero => rfl
  | succ fuel ih =>
      unfold again
      cases hexpect : lib.expectTag (makeTag num 2) s with
      | none => rfl
      | some s' =>
          rw [V.step_message hlib hlaw htag (hlib.expectTag_eq htag hexpect),
            Option.elim_some, V.get_set]
          cases readSlot lib (sub.mergePartial lib) (sub.clear lib) label slot
              s' with
          | none => rfl
          | some r =>
              rw [Option.bind_some, V.set_set]
              exact ih r.1 r.2

/-- The case of a field reads one message, and the loop the next ones. -/
theorem View.readField_eq (hlib : lib.Reads) (hlaw : D.lawful = true)
    {num : Nat} {label : Label} {sub : Desc}
    (V : View lib D (.message num label sub d)) (htag : IsTag num 2)
    (M : D.Message U) (y : d.Message U) (slot : label.Slot (sub.Message U))
    (s : S) :
    ((readField lib (sub.mergePartial lib) (sub.clear lib) num label slot
        s).bind fun r => D.plain lib (V.set M (r.1, y)) r.2) =
      (readSlot lib (sub.mergePartial lib) (sub.clear lib) label slot
        s).bind fun r => D.plain lib (V.set M (r.1, y)) r.2 := by
  unfold readField
  cases readSlot lib (sub.mergePartial lib) (sub.clear lib) label slot s with
  | none => rfl
  | some r =>
      simp only [Option.bind_eq_bind, Option.bind_some]
      by_cases hlabel : label = .repeated
      · rw [if_pos hlabel, V.again_eq hlib hlaw htag]
      · rw [if_neg hlabel, Option.bind_some]

/-- What a part of the fields leaves is what all of them leave. -/
theorem View.resume_comp (V : View lib D d) (W : View lib d e)
    (M : D.Message U) (m : d.Message U) :
    (V.comp W).resume (V.set M m) = fun r => V.resume M (r.map (W.set m)) := by
  funext r
  unfold View.resume Round.map
  rw [V.set_comp]

/-- At the end of the input the plain loop stops too. -/
theorem plain_atEnd (hlib : lib.Reads) (hlaw : d.lawful = true) {s s' : S}
    (h : lib.expectAtEnd s = some s') (m : d.Message U) :
    d.plain lib m s = some (m, s') := by
  rw [plain_eq hlib hlaw, hlib.expectAtEnd_eq h]
  rfl

/-- Wherever the chain of expected fields breaks, the loop that goes on from
there does what it would have done from the start. -/
theorem View.expect_eq (hlib : lib.Reads) {d : Desc} (hd : d.lawful = true) :
    ∀ {D : Desc} (_ : D.lawful = true) (V : View lib D d) (M : D.Message U)
      (m : d.Message U) (s : S),
      (d.expect lib m s).bind (V.resume M) = D.plain lib (V.set M m) s := by
  induction d with
  | nil =>
      intro D hlaw V M m s
      unfold Desc.expect
      cases hexpect : lib.expectAtEnd s with
      | none => rfl
      | some s' =>
          rw [plain_atEnd hlib hlaw hexpect]
          rfl
  | scalar num required type d ih =>
      intro D hlaw V M m s
      obtain ⟨htag, hnot, hrest⟩ := lawful_scalar hd
      unfold Desc.expect
      cases hexpect : lib.expectTag (makeTag num type.wireType) s with
      | none => rfl
      | some s' =>
          rw [V.step_scalar hlib hlaw htag (hlib.expectTag_eq htag hexpect),
            V.get_set, Option.elim_some]
          cases lib.read type s' with
          | none => rfl
          | some r =>
              have htail := ih hrest hlaw (V.comp (.scalarTail hnot))
                (V.set M (some r.1, m.2)) m.2 r.2
              rw [V.resume_comp, V.set_comp] at htail
              simp only [Option.bind_eq_bind, Option.bind_some]
              rw [V.set_set, Option.bind_map]
              exact htail
  | message num label sub d _ ih =>
      intro D hlaw V M m s
      obtain ⟨htag, hnot, _, hrest⟩ := lawful_message hd
      unfold Desc.expect
      cases hexpect : lib.expectTag (makeTag num 2) s with
      | none => rfl
      | some s' =>
          have hstep := V.step_message hlib hlaw htag
            (hlib.expectTag_eq htag hexpect) (V.set M m)
          simp only [V.get_set, V.set_set] at hstep
          rw [← V.readField_eq hlib hlaw htag] at hstep
          rw [Option.elim_some]
          refine Eq.trans ?_ hstep.symm
          have hsame : run lib (sub.mergeCase lib) = sub.mergePartial lib := rfl
          rw [hsame]
          cases readField lib (sub.mergePartial lib) (sub.clear lib) num label
              m.1 s' with
          | none => rfl
          | some r =>
              have htail := ih hrest hlaw (V.comp (.messageTail hnot))
                (V.set M (r.1, m.2)) m.2 r.2
              rw [V.resume_comp, V.set_comp] at htail
              simp only [Option.bind_eq_bind, Option.bind_some]
              rw [Option.bind_map]
              exact htail

/-- A round with its jumps. -/
theorem View.mergeCase_eq (hlib : lib.Reads) {d : Desc}
    (hd : d.lawful = true) :
    ∀ {D : Desc} (_ : D.lawful = true) (V : View lib D d) (tag : Nat)
      (M : D.Message U) (m : d.Message U) (s : S),
      (d.mergeCase lib tag m s).bind (V.resume M) =
        (d.mergeField lib (fun d => d.mergePartial lib) tag m s).bind
          (V.resume M) := by
  induction d with
  | nil =>
      intro D _ V tag M m s
      unfold Desc.mergeCase Desc.mergeField
      rfl
  | scalar num required type d ih =>
      intro D hlaw V tag M m s
      obtain ⟨_, hnot, hrest⟩ := lawful_scalar hd
      unfold Desc.mergeCase Desc.mergeField
      by_cases hnum : lib.getTagFieldNumber tag = num
      · rw [if_pos hnum, if_pos hnum]
        by_cases hwire : lib.getTagWireType tag = type.wireType
        · rw [if_pos hwire, if_pos hwire]
          cases lib.read type s with
          | none => rfl
          | some r =>
              have htail := View.expect_eq hlib hrest hlaw (V.comp (.scalarTail hnot))
                (V.set M (some r.1, m.2)) m.2 r.2
              rw [V.resume_comp, V.set_comp] at htail
              simp only [Option.bind_eq_bind, Option.bind_some,
                Option.map_some]
              rw [Option.bind_map]
              exact htail
        · rw [if_neg hwire, if_neg hwire]
      · have htail := ih hrest hlaw (V.comp (.scalarTail hnot)) tag (V.set M m) m.2 s
        rw [V.resume_comp] at htail
        rw [if_neg hnum, if_neg hnum, Option.bind_map, Option.bind_map]
        exact htail
  | message num label sub d _ ih =>
      intro D hlaw V tag M m s
      obtain ⟨htag, hnot, _, hrest⟩ := lawful_message hd
      unfold Desc.mergeCase Desc.mergeField
      by_cases hnum : lib.getTagFieldNumber tag = num
      · rw [if_pos hnum, if_pos hnum]
        by_cases hwire : lib.getTagWireType tag = 2
        · rw [if_pos hwire, if_pos hwire, Option.bind_map]
          refine Eq.trans ?_ (V.readField_eq hlib hlaw htag M m.2 m.1 s)
          have hsame : run lib (sub.mergeCase lib) = sub.mergePartial lib := rfl
          rw [hsame]
          cases readField lib (sub.mergePartial lib) (sub.clear lib) num label
              m.1 s with
          | none => rfl
          | some r =>
              have htail := View.expect_eq hlib hrest hlaw
                (V.comp (.messageTail hnot)) (V.set M (r.1, m.2)) m.2 r.2
              rw [V.resume_comp, V.set_comp] at htail
              simp only [Option.bind_eq_bind, Option.bind_some]
              rw [Option.bind_map]
              exact htail
        · rw [if_neg hwire, if_neg hwire]
      · have htail := ih hrest hlaw (V.comp (.messageTail hnot)) tag (V.set M m) m.2 s
        rw [V.resume_comp] at htail
        rw [if_neg hnum, if_neg hnum, Option.bind_map, Option.bind_map]
        exact htail

/-- The jumps change nothing, whatever the stream gives. -/
theorem mergePartial_eq (hlib : lib.Reads) (hlaw : d.lawful = true)
    (m : d.Message U) (s : S) :
    d.mergePartial lib m s = d.plain lib m s := by
  induction hn : lib.unread s using Nat.strongRecOn
    generalizing m s with
  | ind n ih =>
      unfold Desc.mergePartial
      rw [run_eq hlib (rounds_le hlib hlaw).2]
      by_cases htag : (lib.readTag s).1 = 0
      · rw [if_pos htag, plain_eq hlib hlaw, if_pos htag]
      · have hlt := hlib.readTag_lt htag
        have hround := (View.all lib d).mergeCase_eq hlib hlaw hlaw
          (lib.readTag s).1 m m (lib.readTag s).2
        rw [if_neg htag, plain_eq hlib hlaw, if_neg htag]
        refine Eq.trans ?_ hround
        cases hr : d.mergeCase lib (lib.readTag s).1 m (lib.readTag s).2 with
        | none => rfl
        | some r =>
            have hle := (rounds_le hlib hlaw).2 _ _ _ _ hr
            have hrest : run lib (d.mergeCase lib) r.message r.stream =
                d.plain lib r.message r.stream :=
              ih _ (by omega) r.message r.stream rfl
            rw [Option.bind_some, Option.bind_some, hrest]
            rfl

/-- The generated parser is its own loop without jumps. -/
theorem mergePartial_plainLoop (hlib : lib.Reads) (hlaw : d.lawful = true)
    (m : d.Message U) (s : S) :
    d.mergePartial lib m s =
      Desc.plainLoop lib (fun d => d.mergePartial lib) d m s := by
  unfold Desc.plainLoop
  rw [mergePartial_eq hlib hlaw, plain_eq hlib hlaw]
  simp only [mergePartial_eq hlib hlaw]
  rfl

/-! ## No other parser is its own plain loop -/

/-- A round uses the parsers of the messages below it. -/
theorem mergeField_congr {p q : Parser U S} (hlaw : d.lawful = true)
    (h : ∀ sub : Desc, sub.lawful = true → sub.height < d.height →
      ∀ m s, p sub m s = q sub m s) (tag : Nat) (m : d.Message U) (s : S) :
    d.mergeField lib p tag m s = d.mergeField lib q tag m s := by
  induction d with
  | nil => rfl
  | scalar num required type rest ih =>
      obtain ⟨_, _, hrest⟩ := lawful_scalar hlaw
      unfold Desc.mergeField
      rw [ih hrest h m.2]
  | message num label sub rest _ ih =>
      obtain ⟨_, _, hsub, hrest⟩ := lawful_message hlaw
      have hparse : p sub = q sub := by
        funext m s
        exact h sub hsub (Nat.le_max_left _ _) m s
      have htail : ∀ x : Desc, x.lawful = true → x.height < rest.height →
          ∀ m s, p x m s = q x m s :=
        fun x hx hlt => h x hx (Nat.lt_of_lt_of_le hlt (Nat.le_max_right _ _))
      unfold Desc.mergeField
      rw [ih hrest htail m.2, hparse]

/-- Every tag takes a byte, and messages are embedded finitely deep. -/
theorem plainLoop_unique (hlib : lib.Reads) {parse : Parser U S}
    (h : ∀ d : Desc, d.lawful = true → ∀ m s,
      parse d m s = Desc.plainLoop lib parse d m s)
    (hlaw : d.lawful = true) (m : d.Message U) (s : S) :
    parse d m s = d.mergePartial lib m s := by
  induction hk : d.height using Nat.strongRecOn generalizing d m s with
  | ind k below =>
      induction hn : lib.unread s using Nat.strongRecOn generalizing m s with
      | ind n ih =>
          have hfield := @mergeField_congr _ _ lib d parse
            (fun d => d.mergePartial lib) hlaw
            (fun sub hsub hlt m s =>
              below sub.height (hk ▸ hlt) hsub m s rfl)
            (lib.readTag s).1 m (lib.readTag s).2
          rw [h d hlaw, mergePartial_plainLoop hlib hlaw]
          unfold Desc.plainLoop
          by_cases htag : (lib.readTag s).1 = 0
          · rw [if_pos htag, if_pos htag]
          · have hlt := hlib.readTag_lt htag
            rw [if_neg htag, if_neg htag, hfield]
            cases hr : d.mergeField lib (fun d => d.mergePartial lib)
                (lib.readTag s).1 m (lib.readTag s).2 with
            | none => rfl
            | some r =>
                have hle := mergeField_onward hlib hlaw _ _ _ _ hr
                have hrest : parse d r.message r.stream =
                    d.mergePartial lib r.message r.stream :=
                  ih (lib.unread r.stream) (by omega) r.message r.stream rfl
                simp only [Option.bind_eq_bind, Option.bind_some]
                rw [hrest]

end ProtocolBuffers
