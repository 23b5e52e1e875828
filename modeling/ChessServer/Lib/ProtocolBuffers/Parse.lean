import ChessServer.Lib.ProtocolBuffers.Jumps

/-!
# Parsing what was serialized

A parser that reads a serialized message into an object leaves what `MergeFrom`
leaves (`mergePartial_serialize`); into a cleared object, the message itself
(`parse_serialize`).  The parser follows the number in each tag, and the
serializer the order of the fields: a `View` is how far the latter has come.
-/

namespace ProtocolBuffers

variable {U S : Type} {lib : Runtime U S} {Sees : S → Window → Prop}
  {D d : Desc}

/-! ## The sizes that are written -/

theorem Scalar.fits_of_length (hlib : lib.ReadsBack Sees) (num : Nat)
    {type : Scalar} {v : type.Value}
    (h : (lib.write num type v).length < maxLength) : type.Fits v := by
  cases type with
  | bytes => exact Nat.lt_of_le_of_lt hlib.length_value h
  | int32 => trivial
  | uint32 => trivial
  | bool => trivial

/-- An element of a field that is written. -/
def element (lib : Runtime U S) (num : Nat) (sub : Desc)
    (v : sub.Message U) : List UInt8 :=
  lib.writeMessage num (sub.byteSize lib v) (sub.serialize lib v)

theorem serialize_le_element (hlib : lib.ReadsBack Sees) (num : Nat)
    {sub : Desc} (v : sub.Message U) :
    (sub.serialize lib v).length ≤ (element lib num sub v).length :=
  hlib.length_body

theorem serialize_message {num : Nat} {label : Label} {sub : Desc}
    (m : (Desc.message num label sub d).Message U) :
    (Desc.message num label sub d).serialize lib m =
      (label.toList m.1).flatMap (element lib num sub) ++
        d.serialize lib m.2 := rfl

/-- The elements of a field take the bytes that are counted for them. -/
theorem length_flatMap_element (hlib : lib.ReadsBack Sees) {num : Nat}
    {sub : Desc} (htag : IsTag num 2)
    (hsize : ∀ v, (sub.serialize lib v).length < maxLength →
      sub.byteSize lib v = (sub.serialize lib v).length)
    (xs : List (sub.Message U))
    (hlen : (xs.flatMap (element lib num sub)).length < maxLength) :
    (xs.map fun v => 1 + lib.messageSize (sub.byteSize lib v)).sum =
      (xs.flatMap (element lib num sub)).length := by
  induction xs with
  | nil => rfl
  | cons v xs ih =>
      rw [List.flatMap_cons, List.length_append] at hlen
      have hle := serialize_le_element hlib num v
      have hv : (sub.serialize lib v).length < maxLength := by omega
      have helement : (element lib num sub v).length =
          1 + lib.messageSize (sub.byteSize lib v) := by
        unfold element
        rw [hsize v hv]
        exact hlib.length_writeMessage htag hv
      rw [List.map_cons, List.sum_cons, ih (by omega), List.flatMap_cons,
        List.length_append, helement]

/-- `ByteSize` counts the bytes that `SerializeWithCachedSizes` writes. -/
theorem byteSize_eq (hlib : lib.ReadsBack Sees) (hlaw : d.lawful = true)
    (m : d.Message U) (hlen : (d.serialize lib m).length < maxLength) :
    d.byteSize lib m = (d.serialize lib m).length := by
  induction d with
  | nil =>
      unfold Desc.byteSize Desc.serialize
      split
      · rfl
      · exact (hlib.length_unknown m).symm
  | scalar num required type rest ih =>
      obtain ⟨htag, _, hrest⟩ := lawful_scalar hlaw
      rw [Desc.serialize, List.length_append] at hlen
      rw [Desc.byteSize, Desc.serialize, List.length_append,
        ih hrest m.2 (by omega)]
      congr 1
      cases hv : m.1 with
      | none => rfl
      | some v =>
          rw [hv, Option.elim_some] at hlen
          have hfits : type.Fits v :=
            Scalar.fits_of_length hlib num (by omega)
          rw [Option.elim_some, Option.elim_some,
            hlib.length_write htag hfits]
  | message num label sub rest ihsub ih =>
      obtain ⟨htag, _, hsub, hrest⟩ := lawful_message hlaw
      rw [serialize_message, List.length_append] at hlen
      rw [Desc.byteSize, serialize_message, List.length_append,
        ih hrest m.2 (by omega),
        length_flatMap_element hlib htag (ihsub hsub) _ (by omega)]

/-! ## Reading what was written -/

/-- Parsing what `v` writes into `w` merges it, and ends where it ends. -/
def Absorbs (lib : Runtime U S) (Sees : S → Window → Prop) (sub : Desc)
    (v : sub.Message U) (levels : Nat) : Prop :=
  ∀ (x : sub.Message U) (s : S) (w : Window), levels ≤ w.levels →
    w.bytes = sub.serialize lib v → Sees s w →
    ∃ s', sub.mergePartial lib x s = some (sub.mergeFrom lib x v, s') ∧
      Sees s' (w.left []) ∧ lib.consumedEntireMessage s' = true

/-- One element, which the loop reads into the slot of its field. -/
theorem View.element_step (hlib : lib.ReadsBack Sees) (hD : D.lawful = true)
    {num : Nat} {label : Label} {sub : Desc}
    (V : View lib D (.message num label sub d)) (htag : IsTag num 2)
    (hlaw : sub.lawful = true) {v : sub.Message U}
    (hv : (sub.serialize lib v).length < maxLength) {s : S} {w : Window}
    {input : List UInt8} {levels : Nat} (hsub : Absorbs lib Sees sub v levels)
    (hlevels : levels + 1 ≤ w.levels) (hs : Sees s w)
    (hbytes : w.bytes = element lib num sub v ++ input) (M : D.Message U) :
    ∃ s', Sees s' (w.left input) ∧
      D.plain lib M s = D.plain lib (V.set M
        (label.add (sub.clear lib) (sub.mergeFrom lib) (V.get M).1 v,
          (V.get M).2)) s' := by
  unfold element at hbytes
  rw [byteSize_eq hlib hlaw v hv] at hbytes
  obtain ⟨s', hread, hmessage⟩ := hlib.readMessage_write htag hv
    (by omega) hs hbytes
  obtain ⟨s'', hslot, hs''⟩ := @hmessage _ (sub.mergePartial lib)
    (label.target (sub.clear lib) (V.get M).1)
    (sub.mergeFrom lib (label.target (sub.clear lib) (V.get M).1) v)
    fun s hs => hsub _ s (w.inner (sub.serialize lib v) input)
      (Nat.le_sub_of_add_le hlevels) rfl hs
  refine ⟨s'', hs'', ?_⟩
  rw [V.step_message hlib.toReads hD htag hread]
  unfold readSlot
  rw [hslot]
  rfl

/-- The elements of a field, one after another. -/
theorem View.elements (hlib : lib.ReadsBack Sees) (hD : D.lawful = true)
    {num : Nat} {label : Label} {sub : Desc}
    (V : View lib D (.message num label sub d)) (htag : IsTag num 2)
    (hlaw : sub.lawful = true) (xs : List (sub.Message U)) {levels : Nat}
    (hsub : ∀ v ∈ xs, (sub.serialize lib v).length < maxLength →
      Absorbs lib Sees sub v levels)
    (hlen : (xs.flatMap (element lib num sub)).length < maxLength)
    {s : S} {w : Window} {input : List UInt8}
    (hlevels : xs ≠ [] → levels + 1 ≤ w.levels) (hs : Sees s w)
    (hbytes : w.bytes = xs.flatMap (element lib num sub) ++ input)
    (M : D.Message U) :
    ∃ s', Sees s' (w.left input) ∧
      D.plain lib M s = D.plain lib (V.set M
        (xs.foldl (label.add (sub.clear lib) (sub.mergeFrom lib))
          (V.get M).1, (V.get M).2)) s' := by
  induction xs generalizing s w M with
  | nil =>
      have hsame : V.set M ((V.get M).1, (V.get M).2) = M := V.set_get M
      have hw : w = w.left input := by
        rw [List.flatMap_nil, List.nil_append] at hbytes
        rw [← hbytes]
        rfl
      rw [List.foldl_nil, hsame]
      exact ⟨s, hw ▸ hs, rfl⟩
  | cons v xs ih =>
      rw [List.flatMap_cons, List.length_append] at hlen
      rw [List.flatMap_cons, List.append_assoc] at hbytes
      have hle := serialize_le_element hlib num v
      have hv : (sub.serialize lib v).length < maxLength := by omega
      have hlevel := hlevels (List.cons_ne_nil v xs)
      obtain ⟨s', hs', hstep⟩ := V.element_step hlib hD htag hlaw hv
        (hsub v List.mem_cons_self hv) hlevel hs hbytes M
      obtain ⟨s'', hs'', hrest⟩ := ih
        (fun x hx => hsub x (List.mem_cons_of_mem v hx)) (by omega)
        (w := w.left (xs.flatMap (element lib num sub) ++ input))
        (fun _ => hlevel) hs' rfl (V.set M
          (label.add (sub.clear lib) (sub.mergeFrom lib) (V.get M).1 v,
            (V.get M).2))
      refine ⟨s'', hs'', ?_⟩
      rw [hstep, hrest, V.get_set, V.set_set]
      rfl

/-- The loop at the end of what it was given. -/
theorem plain_end (hlib : lib.ReadsBack Sees) (hlaw : d.lawful = true) {s : S}
    {w : Window} (hs : Sees s w) (hbytes : w.bytes = []) (m : d.Message U) :
    ∃ s', d.plain lib m s = some (m, s') ∧ Sees s' w ∧
      lib.consumedEntireMessage s' = true := by
  obtain ⟨s', hread, hs', hend⟩ := hlib.readTag_end hs hbytes
  refine ⟨s', ?_, hs', hend⟩
  rw [plain_eq hlib.toReads hlaw, hread]
  rfl

/-- Reading a serialized message into an object is merging it into the object:
the fields before those of `d` were read already. -/
theorem View.merge_serialize (hlib : lib.ReadsBack Sees) {d : Desc}
    (hlaw : d.lawful = true) :
    ∀ {D : Desc} (_ : D.lawful = true) (V : View lib D d) (M : D.Message U)
      (m : d.Message U) {s : S} {w : Window} (input : List UInt8),
      d.Known lib m → (d.serialize lib m).length < maxLength →
      d.height ≤ w.levels → Sees s w →
      w.bytes = d.serialize lib m ++ input →
      ∃ s', Sees s' (w.left input) ∧
        D.plain lib M s =
          D.plain lib (V.set M (d.mergeFrom lib (V.get M) m)) s' := by
  induction d with
  | nil =>
      intro D hD V M m s w input hknown _ _ hs hbytes
      have hempty : m = lib.empty := hknown
      have hw : w = w.left input := by
        rw [Desc.serialize, hempty, if_pos hlib.isEmpty_empty,
          List.nil_append] at hbytes
        rw [← hbytes]
        rfl
      rw [Desc.mergeFrom, hempty, hlib.mergeUnknown_empty, V.set_get]
      exact ⟨s, hw ▸ hs, rfl⟩
  | scalar num required type d ih =>
      intro D hD V M m s w input hknown hlen hheight hs hbytes
      obtain ⟨htag, hnot, hrest⟩ := lawful_scalar hlaw
      rw [Desc.serialize, List.length_append] at hlen
      rw [Desc.serialize, List.append_assoc] at hbytes
      rw [Desc.mergeFrom]
      cases hv : m.1 with
      | none =>
          rw [hv, Option.elim_none, List.nil_append] at hbytes
          exact ih hrest hD (V.comp (.scalarTail hnot)) M m.2 input hknown (by omega)
            hheight hs hbytes
      | some v =>
          rw [hv, Option.elim_some] at hlen hbytes
          have hfits : type.Fits v :=
            Scalar.fits_of_length hlib num (by omega)
          obtain ⟨s', s'', hread, hvalue, hs''⟩ :=
            hlib.read_write htag hfits hs hbytes
          obtain ⟨t, ht, hmerge⟩ := ih hrest hD (V.comp (.scalarTail hnot))
            (V.set M (some v, (V.get M).2)) m.2 input hknown (by omega)
            (w := w.left (d.serialize lib m.2 ++ input)) hheight hs'' rfl
          refine ⟨t, ht, ?_⟩
          rw [V.step_scalar hlib.toReads hD htag hread, hvalue,
            Option.bind_some, hmerge, V.get_comp, V.set_comp]
          rfl
  | message num label sub d ihsub ih =>
      intro D hD V M m s w input hknown hlen hheight hs hbytes
      obtain ⟨htag, hnot, hsub, hrest⟩ := lawful_message hlaw
      rw [serialize_message, List.length_append] at hlen
      rw [serialize_message, List.append_assoc] at hbytes
      have hlevels : sub.height + 1 ≤ w.levels ∧ d.height ≤ w.levels :=
        Nat.max_le.mp hheight
      have habsorb : ∀ v ∈ label.toList m.1,
          (sub.serialize lib v).length < maxLength →
          Absorbs lib Sees sub v sub.height := by
        intro v hv hvlen x s w hlevel hbytes hs
        have happend := (List.append_nil (sub.serialize lib v)).symm
        obtain ⟨s', hs', hmerge⟩ := ihsub hsub hsub (View.all lib sub) x v []
          (hknown.1 v hv) hvlen hlevel hs (hbytes.trans happend)
        obtain ⟨s'', hend, hs'', hentire⟩ :=
          plain_end hlib hsub hs' rfl (sub.mergeFrom lib x v)
        refine ⟨s'', ?_, hs'', hentire⟩
        rw [mergePartial_eq hlib.toReads hsub, hmerge]
        exact hend
      obtain ⟨s', hs', helements⟩ := V.elements hlib hD htag hsub _ habsorb
        (by omega) (fun _ => hlevels.1) hs hbytes M
      obtain ⟨t, ht, hmerge⟩ := ih hrest hD (V.comp (.messageTail hnot))
        (V.set M ((label.toList m.1).foldl
          (label.add (sub.clear lib) (sub.mergeFrom lib)) (V.get M).1,
          (V.get M).2)) m.2 input hknown.2 (by omega)
        (w := w.left (d.serialize lib m.2 ++ input)) hlevels.2 hs' rfl
      refine ⟨t, ht, ?_⟩
      rw [helements, hmerge, V.get_comp, V.set_comp]
      rfl

/-- The field of a cleared object that is merged into. -/
theorem Label.foldl_add {α : Type} {clear : α} {mergeFrom : α → α → α}
    (h : ∀ v, mergeFrom clear v = v) (label : Label) (slot : label.Slot α) :
    (label.toList slot).foldl (label.add clear mergeFrom) label.none = slot := by
  cases label with
  | repeated =>
      have hadd : (Label.repeated).add clear mergeFrom =
          fun (xs : List α) v => xs ++ [v] := by
        funext xs v
        show xs ++ [mergeFrom clear v] = xs ++ [v]
        rw [h]
      have happend : ∀ xs ys : List α,
          ys.foldl (fun xs v => xs ++ [v]) xs = xs ++ ys := by
        intro xs ys
        induction ys generalizing xs with
        | nil => exact (List.append_nil xs).symm
        | cons y ys ih => rw [List.foldl_cons, ih, List.append_assoc]; rfl
      rw [hadd]
      exact happend [] slot
  | required =>
      cases slot with
      | none => rfl
      | some v => exact congrArg some (h v)
  | optional =>
      cases slot with
      | none => rfl
      | some v => exact congrArg some (h v)

/-- Merging into a cleared object copies. -/
theorem mergeFrom_clear (hlib : lib.ReadsBack Sees) (m : d.Message U) :
    d.mergeFrom lib (d.clear lib) m = m := by
  induction d with
  | nil => exact hlib.empty_mergeUnknown m
  | scalar num required type d ih =>
      rw [Desc.mergeFrom, Desc.clear, ih, Option.or_none]
  | message num label sub d ihsub ih =>
      rw [Desc.mergeFrom, Desc.clear, ih, Label.foldl_add ihsub]

/-- A serialized message at the front of what a stream gives up to its limit. -/
theorem mergePartial_serialize (hlib : lib.ReadsBack Sees)
    (hlaw : d.lawful = true) (x m : d.Message U) (hknown : d.Known lib m)
    (hlen : (d.serialize lib m).length < maxLength) {s : S} {w : Window}
    (hheight : d.height ≤ w.levels) (hs : Sees s w)
    (hbytes : w.bytes = d.serialize lib m) :
    ∃ s', d.mergePartial lib x s = some (d.mergeFrom lib x m, s') ∧
      Sees s' (w.left []) ∧ lib.consumedEntireMessage s' = true := by
  obtain ⟨s', hs', hmerge⟩ := (View.all lib d).merge_serialize hlib hlaw hlaw
    x m [] hknown hlen hheight hs
    (hbytes.trans (List.append_nil (d.serialize lib m)).symm)
  rw [mergePartial_eq hlib.toReads hlaw, hmerge]
  exact plain_end hlib hlaw hs' rfl (d.mergeFrom lib x m)

/-- A message is parsed from what it serializes to, if it has its required
fields. -/
theorem parse_serialize (hlib : lib.ReadsBack Sees) (hlaw : d.lawful = true)
    (hheight : d.height ≤ 64) (m : d.Message U) (hknown : d.Known lib m)
    (hlen : (d.serialize lib m).length < maxLength) :
    d.parseFromString lib (d.serialize lib m) =
      if d.isInitialized m then some m else none := by
  refine hlib.parseFromString_eq hlen fun s hs => ?_
  obtain ⟨s', hmerge, _, hend⟩ := mergePartial_serialize hlib hlaw
    (d.clear lib) m hknown hlen hheight hs rfl
  rw [mergeFrom_clear hlib] at hmerge
  exact ⟨s', hmerge, hend⟩

end ProtocolBuffers
