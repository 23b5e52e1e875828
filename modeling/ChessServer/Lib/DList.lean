import Mathlib.Data.List.Induction
import Mathlib.Logic.Function.Basic

/-!
# Doubly linked lists in a heap

Lists whose nodes point at each other in both directions, between a pointer
to the first node and one to the last, with the operations as C code writes
them: every case assigns the pointers that it has to by hand, and following a
bad pointer is a fault.  `Holds` says which list a heap holds; every operation
has a lemma about the list that it leaves and the nodes that it does not touch.
-/

namespace DList

abbrev Ptr := Nat

/-- A node. -/
structure Node (α : Type) where
  val : α
  next : Option Ptr
  prev : Option Ptr

/-- The nodes that are allocated. -/
abbrev Heap (α : Type) := Ptr → Option (Node α)

/-- The two ends of a list. -/
structure Ends where
  first : Option Ptr
  last : Option Ptr
  deriving DecidableEq

variable {α : Type}

/-! ## Operations -/

/-- Assign to a node. -/
def modify (h : Heap α) (p : Ptr) (f : Node α → Node α) : Option (Heap α) :=
  (h p).map fun n => Function.update h p (some (f n))

/-- `p->next = next`. -/
def setNext (p : Ptr) (next : Option Ptr) (h : Heap α) : Option (Heap α) :=
  modify h p fun n => { n with next := next }

/-- `p->prev = prev`. -/
def setPrev (p : Ptr) (prev : Option Ptr) (h : Heap α) : Option (Heap α) :=
  modify h p fun n => { n with prev := prev }

/-- Fill a new node. -/
def store (p : Ptr) (n : Node α) (h : Heap α) : Heap α :=
  Function.update h p (some n)

/-- `next` follows `prev`, or is the first. -/
def linkNext (prev next : Option Ptr) (q : Ends) (h : Heap α) :
    Option (Ends × Heap α) :=
  match prev with
  | none => some ({ q with first := next }, h)
  | some p => (setNext p next h).map fun h => (q, h)

/-- `prev` precedes `next`, or is the last. -/
def linkPrev (next prev : Option Ptr) (q : Ends) (h : Heap α) :
    Option (Ends × Heap α) :=
  match next with
  | none => some ({ q with last := prev }, h)
  | some p => (setPrev p prev h).map fun h => (q, h)

/-- Take a node out and free it. -/
def remove (t : Ptr) (q : Ends) (h : Heap α) : Option (Ends × Heap α) := do
  let n ← h t
  let (q, h) ← linkNext n.prev n.next q h
  let (q, h) ← linkPrev n.next n.prev q h
  some (q, Function.update h t none)

/-- Put a new node in front of `tmp`, or at the end. -/
def insertBefore (app : Ptr) (val : α) (tmp : Option Ptr) (q : Ends)
    (h : Heap α) : Option (Ends × Heap α) :=
  if q.first = none then
    some (⟨some app, some app⟩, store app ⟨val, none, none⟩ h)
  else
    match tmp with
    | none => do
        let last ← q.last
        let h ← setNext last (some app) (store app ⟨val, none, q.last⟩ h)
        some ({ q with last := some app }, h)
    | some tmp => do
        let n ← h tmp
        match n.prev with
        | none => do
            let h ← setPrev tmp (some app) (store app ⟨val, some tmp, none⟩ h)
            some ({ q with first := some app }, h)
        | some prev => do
            let h ← setNext prev (some app)
              (store app ⟨val, some tmp, some prev⟩ h)
            let h ← setPrev tmp (some app) h
            some (q, h)

/-- Put a new node at the front. -/
def pushFront (app : Ptr) (val : α) (q : Ends) (h : Heap α) :
    Option (Ends × Heap α) :=
  match q.first with
  | none => some (⟨some app, some app⟩, store app ⟨val, none, none⟩ h)
  | some first => do
      let h ← setPrev first (some app) (store app ⟨val, some first, none⟩ h)
      some ({ q with first := some app }, h)

/-- Take the last node out; it stays allocated. -/
def popBack (q : Ends) (h : Heap α) :
    Option (Option Ptr × Ends × Heap α) :=
  match q.last with
  | none => some (none, q, h)
  | some last => do
      let n ← h last
      match n.prev with
      | none => some (some last, ⟨none, none⟩, h)
      | some prev => do
          let h ← setNext prev none h
          some (some last, { q with last := some prev }, h)

/-- Follow `next` to the first node that passes a test. -/
def find (test : α → Bool) (h : Heap α) :
    Nat → Option Ptr → Option (Option Ptr)
  | _, none => some none
  | 0, some _ => none
  | fuel + 1, some p => do
      let n ← h p
      if test n.val then some (some p) else find test h fuel n.next

/-! ## The list in a heap -/

/-- The first node of a segment that `next` follows. -/
def entry (xs : List (Ptr × α)) (next : Option Ptr) : Option Ptr :=
  match xs with
  | [] => next
  | x :: _ => some x.1

/-- The last node of a segment that comes after `prev`. -/
def exit (prev : Option Ptr) : List (Ptr × α) → Option Ptr
  | [] => prev
  | x :: xs => exit (some x.1) xs

/-- The nodes `xs` are linked to each other, to `prev` and to `next`. -/
def Seg (h : Heap α) (prev : Option Ptr) :
    List (Ptr × α) → Option Ptr → Prop
  | [], _ => True
  | x :: xs, next =>
      h x.1 = some ⟨x.2, entry xs next, prev⟩ ∧ Seg h (some x.1) xs next

/-- Where the nodes are. -/
abbrev keys (xs : List (Ptr × α)) : List Ptr := xs.map Prod.fst

/-- The ends and the heap hold a list. -/
structure Holds (h : Heap α) (q : Ends) (xs : List (Ptr × α)) : Prop where
  first : q.first = entry xs none
  last : q.last = exit none xs
  nodup : (keys xs).Nodup
  links : Seg h none xs none

theorem entry_append (xs ys : List (Ptr × α)) (next : Option Ptr) :
    entry (xs ++ ys) next = entry xs (entry ys next) := by
  cases xs <;> rfl

theorem exit_append (xs ys : List (Ptr × α)) (prev : Option Ptr) :
    exit prev (xs ++ ys) = exit (exit prev xs) ys := by
  induction xs generalizing prev with
  | nil => rfl
  | cons x xs ih => exact ih _

theorem seg_append {h : Heap α} {prev next : Option Ptr}
    (xs ys : List (Ptr × α)) :
    Seg h prev (xs ++ ys) next ↔
      Seg h prev xs (entry ys next) ∧ Seg h (exit prev xs) ys next := by
  induction xs generalizing prev with
  | nil => simp [Seg, exit]
  | cons x xs ih =>
      rw [List.cons_append, Seg, Seg, ih, entry_append, exit, and_assoc]

/-- A segment only depends on its own nodes. -/
theorem Seg.congr {h h' : Heap α} {prev next : Option Ptr}
    {xs : List (Ptr × α)} (hseg : Seg h prev xs next)
    (hsame : ∀ p ∈ keys xs, h' p = h p) : Seg h' prev xs next := by
  induction xs generalizing prev with
  | nil => trivial
  | cons x xs ih =>
      obtain ⟨hnode, hrest⟩ := hseg
      constructor
      · rw [hsame x.1 (List.mem_cons_self ..), hnode]
      · exact ih hrest fun p hp => hsame p (List.mem_cons_of_mem _ hp)

/-- A node outside a segment can be overwritten. -/
theorem Seg.update {h : Heap α} {prev next : Option Ptr}
    {xs : List (Ptr × α)} (hseg : Seg h prev xs next) {p : Ptr}
    (hp : p ∉ keys xs) (n : Option (Node α)) :
    Seg (Function.update h p n) prev xs next := by
  apply hseg.congr
  intro q hq
  apply Function.update_of_ne
  rintro rfl
  exact hp hq

/-- The node of a list's member. -/
theorem Seg.node {h : Heap α} {prev next : Option Ptr}
    {xs ys : List (Ptr × α)} {x : Ptr × α}
    (hseg : Seg h prev (xs ++ x :: ys) next) :
    h x.1 = some ⟨x.2, entry ys next, exit prev xs⟩ :=
  ((seg_append xs (x :: ys)).mp hseg).2.1

theorem Holds.node {h : Heap α} {q : Ends} {xs ys : List (Ptr × α)}
    {x : Ptr × α} (hold : Holds h q (xs ++ x :: ys)) :
    h x.1 = some ⟨x.2, entry ys none, exit none xs⟩ := hold.links.node

theorem Holds.congr {h h' : Heap α} {q : Ends} {xs : List (Ptr × α)}
    (hold : Holds h q xs) (hsame : ∀ p ∈ keys xs, h' p = h p) :
    Holds h' q xs :=
  { hold with links := hold.links.congr hsame }

theorem holds_nil (h : Heap α) : Holds h ⟨none, none⟩ [] :=
  ⟨rfl, rfl, List.nodup_nil, trivial⟩

theorem exit_concat (xs : List (Ptr × α)) (x : Ptr × α) (prev : Option Ptr) :
    exit prev (xs ++ [x]) = some x.1 := by
  rw [exit_append]
  rfl

/-! ## The pointers of a list -/

theorem entry_eq_none (xs : List (Ptr × α)) :
    entry xs none = none ↔ xs = [] := by
  cases xs with
  | nil => simp [entry]
  | cons x xs => simp [entry]

theorem exit_eq_none (xs : List (Ptr × α)) :
    exit none xs = none ↔ xs = [] := by
  cases xs using List.reverseRecOn with
  | nil => simp [exit]
  | append_singleton xs x => simp [exit_concat]

/-- The pointers agree in both directions.  The ends are null together, the
first node has no predecessor and the last one no successor, and neighbours
point at each other. -/
structure Agree (h : Heap α) (q : Ends) (ps : List Ptr) : Prop where
  ends : q.first = none ↔ q.last = none
  empty : q.first = none ↔ ps = []
  node : ∀ p ∈ ps, ∃ n, h p = some n ∧ (n.prev = none ↔ q.first = some p) ∧
    (n.next = none ↔ q.last = some p) ∧
    (∀ r, n.next = some r → r ∈ ps ∧ ∃ m, h r = some m ∧ m.prev = some p) ∧
    ∀ r, n.prev = some r → r ∈ ps ∧ ∃ m, h r = some m ∧ m.next = some p

/-- The pointers of a list agree. -/
theorem Holds.agree {h : Heap α} {q : Ends} {xs : List (Ptr × α)}
    (hold : Holds h q xs) : Agree h q (keys xs) where
  ends := by rw [hold.first, hold.last, entry_eq_none, exit_eq_none]
  empty := by rw [hold.first, entry_eq_none, List.map_eq_nil_iff]
  node := by
    intro p hp
    obtain ⟨x, hx, rfl⟩ := List.mem_map.mp hp
    obtain ⟨front, back, rfl⟩ := List.append_of_mem hx
    have hmem : ∀ {y}, y ∈ front ++ x :: back →
        y.1 ∈ keys (front ++ x :: back) := fun hy => List.mem_map_of_mem hy
    have hnodup := hold.nodup
    rw [keys, List.map_append, List.map_cons, List.nodup_append,
      List.nodup_cons] at hnodup
    obtain ⟨-, ⟨hback, -⟩, hdisj⟩ := hnodup
    refine ⟨_, hold.node, ?_, ?_, fun r hr => ?_, fun r hr => ?_⟩
    · -- the first node
      rw [hold.first, exit_eq_none, entry_append]
      cases front with
      | nil => simp [entry]
      | cons y front =>
          have hne : y.1 ≠ x.1 := fun heq =>
            hdisj y.1 (List.mem_cons_self ..) x.1 (List.mem_cons_self ..) heq
          simp [entry, hne]
    · -- the last node
      rw [hold.last, entry_eq_none, exit_append]
      cases back using List.reverseRecOn with
      | nil => simp [exit]
      | append_singleton back y =>
          have hne : y.1 ≠ x.1 := by
            intro heq
            apply hback
            rw [List.map_append, ← heq]
            exact List.mem_append_right _ (List.mem_singleton_self _)
          simp [exit, exit_concat, hne]
    · cases back with
      | nil => cases hr
      | cons y back =>
          cases hr
          have hold' : Holds h q ((front ++ [x]) ++ y :: back) := by
            rw [List.append_assoc]
            exact hold
          have hy : y ∈ front ++ x :: y :: back := by simp
          refine ⟨hmem hy, _, hold'.node, ?_⟩
          rw [exit_concat]
    · cases front using List.reverseRecOn with
      | nil => cases hr
      | append_singleton front y =>
          have hr' : exit none (front ++ [y]) = some r := hr
          rw [exit_concat, Option.some.injEq] at hr'
          subst hr'
          have hold' : Holds h q (front ++ y :: x :: back) := by
            rw [List.append_assoc] at hold
            exact hold
          exact ⟨hmem (by simp), _, hold'.node, rfl⟩

/-! ## What the operations do -/

theorem setNext_eq {h : Heap α} {p : Ptr} {n : Node α} (hp : h p = some n)
    (next : Option Ptr) :
    setNext p next h = some (store p { n with next := next } h) := by
  rw [setNext, modify, hp]
  rfl

theorem setPrev_eq {h : Heap α} {p : Ptr} {n : Node α} (hp : h p = some n)
    (prev : Option Ptr) :
    setPrev p prev h = some (store p { n with prev := prev } h) := by
  rw [setPrev, modify, hp]
  rfl

/-- The end of a segment gets a new successor. -/
theorem linkNext_seg {h : Heap α} {q : Ends} {xs : List (Ptr × α)}
    {old : Option Ptr} (hseg : Seg h none xs old) (hnodup : (keys xs).Nodup)
    (hfirst : q.first = entry xs old) (next : Option Ptr) :
    ∃ q' h', linkNext (exit none xs) next q h = some (q', h') ∧
      Seg h' none xs next ∧ q'.first = entry xs next ∧ q'.last = q.last ∧
      ∀ p, p ∉ keys xs → h' p = h p := by
  cases xs using List.reverseRecOn with
  | nil => exact ⟨_, _, rfl, trivial, rfl, rfl, fun _ _ => rfl⟩
  | append_singleton xs x =>
      have hnode := hseg.node
      rw [exit_concat, linkNext, setNext_eq hnode]
      have hx : x.1 ∉ keys xs := by
        rw [keys, List.map_append, List.nodup_append] at hnodup
        intro hmem
        exact hnodup.2.2 x.1 hmem x.1 (List.mem_singleton_self _) rfl
      refine ⟨_, _, rfl, ?_, ?_, rfl, fun p hp => ?_⟩
      · rw [seg_append] at hseg ⊢
        exact ⟨hseg.1.update hx _, Function.update_self _ _ _, trivial⟩
      · rw [hfirst, entry_append, entry_append]
        rfl
      · apply Function.update_of_ne
        rintro rfl
        exact hp (List.mem_map_of_mem (List.mem_append_right _
          (List.mem_singleton_self _)))

/-- The start of a segment gets a new predecessor. -/
theorem linkPrev_seg {h : Heap α} {q : Ends} {xs : List (Ptr × α)}
    {old : Option Ptr} (hseg : Seg h old xs none) (hnodup : (keys xs).Nodup)
    (hlast : q.last = exit old xs) (prev : Option Ptr) :
    ∃ q' h', linkPrev (entry xs none) prev q h = some (q', h') ∧
      Seg h' prev xs none ∧ q'.first = q.first ∧ q'.last = exit prev xs ∧
      ∀ p, p ∉ keys xs → h' p = h p := by
  cases xs with
  | nil => exact ⟨_, _, rfl, trivial, rfl, rfl, fun _ _ => rfl⟩
  | cons x xs =>
      obtain ⟨hnode, hrest⟩ := hseg
      rw [entry, linkPrev, setPrev_eq hnode]
      rw [keys, List.map_cons, List.nodup_cons] at hnodup
      refine ⟨_, _, rfl, ?_, rfl, hlast, fun p hp => ?_⟩
      · exact ⟨Function.update_self _ _ _, hrest.update hnodup.1 _⟩
      · apply Function.update_of_ne
        rintro rfl
        exact hp (List.mem_cons_self ..)

/-- A node is taken out. -/
theorem remove_holds {h : Heap α} {q : Ends} {xs ys : List (Ptr × α)}
    {x : Ptr × α} (hold : Holds h q (xs ++ x :: ys)) :
    ∃ q' h', remove x.1 q h = some (q', h') ∧ Holds h' q' (xs ++ ys) ∧
      h' x.1 = none ∧ ∀ p, p ∉ keys (xs ++ x :: ys) → h' p = h p := by
  obtain ⟨hfirst, hlast, hnodup, hlinks⟩ := hold
  have hnode := hlinks.node
  have hkeys : keys (xs ++ x :: ys) = keys xs ++ x.1 :: keys ys := by simp
  rw [hkeys, List.nodup_append] at hnodup
  obtain ⟨hxs, hnodup, hdisj⟩ := hnodup
  obtain ⟨hx, hys⟩ := List.nodup_cons.mp hnodup
  have hxxs : x.1 ∉ keys xs := fun hmem =>
    hdisj x.1 hmem x.1 (List.mem_cons_self ..) rfl
  have hapart : ∀ p ∈ keys ys, p ∉ keys xs := fun p hp hmem =>
    hdisj p hmem p (List.mem_cons_of_mem _ hp) rfl
  rw [seg_append] at hlinks
  obtain ⟨hfront, -, hback⟩ := hlinks
  rw [entry_append] at hfirst
  rw [exit_append] at hlast
  obtain ⟨q₁, h₁, hnext, hfront₁, hfirst₁, hlast₁, hframe₁⟩ :=
    linkNext_seg hfront hxs hfirst (entry ys none)
  have hback₁ : Seg h₁ (some x.1) ys none :=
    hback.congr fun p hp => hframe₁ p (hapart p hp)
  obtain ⟨q₂, h₂, hprev, hback₂, hfirst₂, hlast₂, hframe₂⟩ :=
    linkPrev_seg hback₁ hys (hlast₁.trans hlast) (exit none xs)
  have hfront₂ : Seg h₂ none xs (entry ys none) :=
    hfront₁.congr fun p hp => hframe₂ p fun hmem => hapart p hmem hp
  refine ⟨q₂, Function.update h₂ x.1 none, ?_, ⟨?_, ?_, ?_, ?_⟩,
    Function.update_self _ _ _, fun p hp => ?_⟩
  · simp only [remove, hnode, hnext, hprev, Option.bind_eq_bind,
      Option.bind_some]
  · rw [hfirst₂, hfirst₁, entry_append]
  · rw [hlast₂, exit_append]
  · rw [keys, List.map_append, List.nodup_append]
    exact ⟨hxs, hys, fun p hp p' hp' => by
      rintro rfl
      exact hapart p hp' hp⟩
  · rw [seg_append]
    exact ⟨hfront₂.update hxxs _, hback₂.update hx _⟩
  · rw [hkeys, List.mem_append, List.mem_cons, not_or, not_or] at hp
    rw [Function.update_of_ne hp.2.1, hframe₂ p hp.2.2, hframe₁ p hp.1]

/-- A new node is linked between two parts of a list. -/
theorem link_holds {h : Heap α} {q : Ends} {xs ys : List (Ptr × α)}
    (hold : Holds h q (xs ++ ys)) {app : Ptr} (val : α)
    (hnew : app ∉ keys (xs ++ ys)) :
    ∃ q' h', ((linkNext (exit none xs) (some app) q
        (store app ⟨val, entry ys none, exit none xs⟩ h)).bind fun r =>
          linkPrev (entry ys none) (some app) r.1 r.2) = some (q', h') ∧
      Holds h' q' (xs ++ (app, val) :: ys) ∧
      ∀ p, p ≠ app → p ∉ keys (xs ++ ys) → h' p = h p := by
  obtain ⟨hfirst, hlast, hnodup, hlinks⟩ := hold
  have hkeys : keys (xs ++ ys) = keys xs ++ keys ys := List.map_append
  rw [hkeys] at hnodup hnew
  rw [List.mem_append, not_or] at hnew
  rw [List.nodup_append] at hnodup
  obtain ⟨hxs, hys, hdisj⟩ := hnodup
  have hapart : ∀ p ∈ keys ys, p ∉ keys xs := fun p hp hmem =>
    hdisj p hmem p hp rfl
  rw [seg_append] at hlinks
  rw [entry_append] at hfirst
  rw [exit_append] at hlast
  obtain ⟨q₁, h₁, hnext, hfront₁, hfirst₁, hlast₁, hframe₁⟩ :=
    linkNext_seg (hlinks.1.update hnew.1 _) hxs hfirst (some app)
  have hback₁ : Seg h₁ (exit none xs) ys none :=
    (hlinks.2.update hnew.2 _).congr fun p hp => hframe₁ p (hapart p hp)
  obtain ⟨q₂, h₂, hprev, hback₂, hfirst₂, hlast₂, hframe₂⟩ :=
    linkPrev_seg hback₁ hys (hlast₁.trans hlast) (some app)
  have hfront₂ : Seg h₂ none xs (some app) :=
    hfront₁.congr fun p hp => hframe₂ p fun hmem => hapart p hmem hp
  have happ : h₂ app = some ⟨val, entry ys none, exit none xs⟩ := by
    rw [hframe₂ app hnew.2, hframe₁ app hnew.1]
    exact Function.update_self _ _ _
  refine ⟨q₂, h₂, ?_, ⟨?_, ?_, ?_, ?_⟩, fun p hne hp => ?_⟩
  · rw [store, hnext]
    exact hprev
  · rw [hfirst₂, hfirst₁, entry_append]
    rfl
  · rw [hlast₂, exit_append]
    rfl
  · have hnodup : (keys xs ++ app :: keys ys).Nodup := by
      rw [List.nodup_append, List.nodup_cons]
      refine ⟨hxs, ⟨hnew.2, hys⟩, fun p hp p' hp' => ?_⟩
      rintro rfl
      rcases List.mem_cons.mp hp' with rfl | hp'
      · exact hnew.1 hp
      · exact hapart p hp' hp
    simpa using hnodup
  · rw [seg_append]
    exact ⟨hfront₂, happ, hback₂⟩
  · rw [hkeys, List.mem_append, not_or] at hp
    rw [hframe₂ p hp.2, hframe₁ p hp.1]
    exact Function.update_of_ne hne _ _

/-- A new node is put in front of the second part of a list. -/
theorem insertBefore_holds {h : Heap α} {q : Ends} {xs ys : List (Ptr × α)}
    (hold : Holds h q (xs ++ ys)) {app : Ptr} (val : α)
    (hnew : app ∉ keys (xs ++ ys)) :
    ∃ q' h', insertBefore app val (entry ys none) q h = some (q', h') ∧
      Holds h' q' (xs ++ (app, val) :: ys) ∧
      ∀ p, p ≠ app → p ∉ keys (xs ++ ys) → h' p = h p := by
  obtain ⟨q', h', hlink, hrest⟩ := link_holds hold val hnew
  refine ⟨q', h', ?_, hrest⟩
  rw [← hlink]
  have hfirst := hold.first
  have hlast := hold.last
  unfold insertBefore
  cases ys with
  | nil =>
      rw [List.append_nil] at hfirst hlast
      cases xs using List.reverseRecOn with
      | nil =>
          have hempty : q.first = none := hfirst
          rw [if_pos hempty]
          cases q
          rfl
      | append_singleton xs x =>
          have hne : q.first ≠ none := by
            rw [hfirst, entry_append]
            cases xs <;> exact Option.some_ne_none _
          rw [if_neg hne, hlast, exit_concat]
          dsimp only [entry, Option.bind_eq_bind, Option.bind_some, linkNext]
          cases setNext x.1 (some app) (store app ⟨val, none, some x.1⟩ h) with
          | none => rfl
          | some h => rfl
  | cons y ys =>
      have hne : q.first ≠ none := by
        rw [hfirst, entry_append]
        cases xs <;> exact Option.some_ne_none _
      rw [if_neg hne]
      dsimp only [entry]
      rw [hold.node]
      dsimp only [Option.bind_eq_bind, Option.bind_some, linkNext]
      cases exit none xs with
      | none =>
          dsimp only [linkPrev, Option.bind_some]
          cases setPrev y.1 (some app) (store app ⟨val, some y.1, none⟩ h) with
          | none => rfl
          | some h => rfl
      | some prev =>
          dsimp only
          cases setNext prev (some app)
              (store app ⟨val, some y.1, some prev⟩ h) with
          | none => rfl
          | some h =>
              dsimp only [Option.bind_some, Option.map_some, linkPrev]
              cases setPrev y.1 (some app) h with
              | none => rfl
              | some h => rfl

/-- A new node is put at the front. -/
theorem pushFront_holds {h : Heap α} {q : Ends} {xs : List (Ptr × α)}
    (hold : Holds h q xs) {app : Ptr} (val : α) (hnew : app ∉ keys xs) :
    ∃ q' h', pushFront app val q h = some (q', h') ∧
      Holds h' q' ((app, val) :: xs) ∧
      ∀ p, p ≠ app → p ∉ keys xs → h' p = h p := by
  have hold' : Holds h q ([] ++ xs) := hold
  obtain ⟨q', h', hlink, hrest⟩ := link_holds hold' val hnew
  refine ⟨q', h', ?_, hrest⟩
  rw [← hlink]
  have hfirst := hold.first
  unfold pushFront
  cases xs with
  | nil =>
      rw [hfirst]
      cases q
      rfl
  | cons x xs =>
      rw [hfirst]
      dsimp only [entry, exit, linkNext, linkPrev, Option.bind_eq_bind,
        Option.bind_some]
      cases setPrev x.1 (some app) (store app ⟨val, some x.1, none⟩ h) with
      | none => rfl
      | some h => rfl

/-- The last node is taken out and stays as it is. -/
theorem popBack_holds {h : Heap α} {q : Ends} {xs : List (Ptr × α)}
    {x : Ptr × α} (hold : Holds h q (xs ++ [x])) :
    ∃ q' h', popBack q h = some (some x.1, q', h') ∧ Holds h' q' xs ∧
      ∀ p, p ∉ keys xs → h' p = h p := by
  obtain ⟨hfirst, hlast, hnodup, hlinks⟩ := hold
  have hnode := hlinks.node
  rw [keys, List.map_append, List.nodup_append] at hnodup
  rw [seg_append] at hlinks
  rw [entry_append] at hfirst
  obtain ⟨q₁, h₁, hnext, hfront₁, hfirst₁, hlast₁, hframe₁⟩ :=
    linkNext_seg hlinks.1 hnodup.1 hfirst none
  refine ⟨⟨q₁.first, exit none xs⟩, h₁, ?_,
    ⟨hfirst₁, rfl, hnodup.1, hfront₁⟩, hframe₁⟩
  rw [exit_concat] at hlast
  unfold popBack
  rw [hlast]
  dsimp only [Option.bind_eq_bind]
  rw [hnode]
  dsimp only [Option.bind_some]
  cases hexit : exit none xs with
  | none =>
      rw [hexit] at hnext
      cases hnext
      rfl
  | some prev =>
      rw [hexit] at hnext
      dsimp only [linkNext] at hnext ⊢
      cases hset : setNext prev none h with
      | none => rw [hset] at hnext; cases hnext
      | some h =>
          rw [hset] at hnext
          cases hnext
          rfl

theorem popBack_nil {h : Heap α} {q : Ends} (hold : Holds h q []) :
    popBack q h = some (none, q, h) := by
  unfold popBack
  rw [hold.last]
  rfl

/-- The search stops at the first node that passes the test. -/
theorem find_seg (test : α → Bool) {h : Heap α} {prev : Option Ptr}
    {xs : List (Ptr × α)} (hseg : Seg h prev xs none) {fuel : Nat}
    (hfuel : xs.length ≤ fuel) :
    find test h fuel (entry xs none) =
      some (entry (xs.dropWhile fun x => !test x.2) none) := by
  induction xs generalizing prev fuel with
  | nil => cases fuel <;> rfl
  | cons x xs ih =>
      obtain ⟨hnode, hrest⟩ := hseg
      cases fuel with
      | zero => simp at hfuel
      | succ fuel =>
          rw [List.length_cons] at hfuel
          have hnext := ih hrest (show xs.length ≤ fuel by omega)
          rw [entry, find, hnode, List.dropWhile_cons]
          dsimp only [Option.bind_eq_bind, Option.bind_some]
          cases test x.2 with
          | false => exact hnext
          | true => rfl

end DList
