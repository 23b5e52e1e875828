import Mathlib.Data.List.Induction

/-!
# Consuming a stream in blocks

A fold that takes `n` elements at a time.  The elements that do not fill a
block yet are kept, so the stream may come in pieces of any length.
-/

namespace Blocks

variable {σ α : Type} {n : Nat} {f : σ → List α → σ}

/-- One more element; a block that is full is consumed. -/
def push (n : Nat) (f : σ → List α → σ) (s : σ × List α) (a : α) :
    σ × List α :=
  if s.2.length + 1 < n then (s.1, s.2 ++ [a])
  else (f s.1 (s.2 ++ [a]), [])

/-- A piece of the stream. -/
def feed (n : Nat) (f : σ → List α → σ) (s : σ × List α) (xs : List α) :
    σ × List α :=
  xs.foldl (push n f) s

@[simp] theorem feed_nil (s : σ × List α) : feed n f s [] = s := rfl

/-- How the stream is cut does not matter. -/
theorem feed_append (s : σ × List α) (xs ys : List α) :
    feed n f s (xs ++ ys) = feed n f (feed n f s xs) ys :=
  List.foldl_append

/-- A piece that leaves the block open. -/
theorem feed_short (s : σ) (kept xs : List α)
    (hshort : kept.length + xs.length < n) :
    feed n f (s, kept) xs = (s, kept ++ xs) := by
  induction xs generalizing kept with
  | nil => simp
  | cons x xs ih =>
      rw [List.length_cons] at hshort
      have hpush : push n f (s, kept) x = (s, kept ++ [x]) :=
        if_pos (show kept.length + 1 < n by omega)
      have hlen : (kept ++ [x]).length + xs.length < n := by
        rw [List.length_append, List.length_singleton]
        omega
      show feed n f (push n f (s, kept) x) xs = _
      rw [hpush, ih (kept ++ [x]) hlen, List.append_assoc]
      rfl

/-- A piece that fills the block exactly. -/
theorem feed_full (s : σ) (kept xs : List α) (hkept : kept.length < n)
    (hfull : kept.length + xs.length = n) :
    feed n f (s, kept) xs = (f s (kept ++ xs), []) := by
  cases xs using List.reverseRecOn with
  | nil =>
      rw [List.length_nil] at hfull
      omega
  | append_singleton xs x =>
      rw [List.length_append, List.length_singleton] at hfull
      rw [feed_append, feed_short s kept xs (by omega)]
      have hlen : ¬ (kept ++ xs).length + 1 < n := by
        rw [List.length_append]
        omega
      show push n f (s, kept ++ xs) x = _
      rw [push, if_neg hlen, List.append_assoc]

/-- Whole blocks. -/
theorem feed_blocks (hpos : 0 < n) (s : σ) (blocks : List (List α))
    (hblocks : ∀ block ∈ blocks, block.length = n) :
    feed n f (s, []) blocks.flatten = (blocks.foldl f s, []) := by
  induction blocks generalizing s with
  | nil => rfl
  | cons block blocks ih =>
      have hblock : block.length = n := hblocks block List.mem_cons_self
      show feed n f (s, []) (block ++ blocks.flatten) = _
      rw [feed_append, feed_full s [] block hpos (by simpa using hblock)]
      exact ih (f s block) fun b hb => hblocks b (List.mem_cons_of_mem _ hb)

/-- The whole blocks of a list. -/
def split (n : Nat) (xs : List α) : List (List α) :=
  (List.range (xs.length / n)).map fun i => (xs.drop (n * i)).take n

theorem length_of_mem_split {xs block : List α} (h : block ∈ split n xs) :
    block.length = n := by
  obtain ⟨i, hi, rfl⟩ := List.mem_map.mp h
  have hin : i + 1 ≤ xs.length / n := List.mem_range.mp hi
  have hle : n * (i + 1) ≤ xs.length :=
    Nat.le_trans (Nat.mul_le_mul_left n hin) (Nat.mul_div_le xs.length n)
  rw [Nat.mul_succ] at hle
  rw [List.length_take, List.length_drop]
  omega

/-- The first blocks are the first part of the list. -/
theorem flatten_map_take (xs : List α) (count : Nat)
    (hle : n * count ≤ xs.length) :
    ((List.range count).map fun i => (xs.drop (n * i)).take n).flatten =
      xs.take (n * count) := by
  induction count with
  | zero => simp
  | succ count ih =>
      rw [Nat.mul_succ] at hle
      rw [List.range_succ, List.map_append, List.flatten_append,
        ih (by omega), Nat.mul_succ, List.take_add]
      simp

theorem flatten_split {xs : List α} (hdvd : n ∣ xs.length) :
    (split n xs).flatten = xs := by
  have hmul : n * (xs.length / n) = xs.length := Nat.mul_div_cancel' hdvd
  unfold split
  rw [flatten_map_take xs _ (Nat.le_of_eq hmul), hmul, List.take_length]

/-- A stream of whole blocks. -/
theorem feed_split (hpos : 0 < n) (s : σ) {xs : List α}
    (hdvd : n ∣ xs.length) :
    feed n f (s, []) xs = ((split n xs).foldl f s, []) := by
  have hblocks := feed_blocks (f := f) hpos s (split n xs)
    fun _ h => length_of_mem_split h
  rwa [flatten_split hdvd] at hblocks

/-- What is kept is what is left over. -/
theorem feed_kept (hpos : 0 < n) (s : σ) (kept xs : List α)
    (hkept : kept.length < n) :
    (feed n f (s, kept) xs).2.length = (kept.length + xs.length) % n := by
  induction xs generalizing s kept with
  | nil =>
      show kept.length = (kept.length + 0) % n
      rw [Nat.add_zero, Nat.mod_eq_of_lt hkept]
  | cons x xs ih =>
      show (feed n f (push n f (s, kept) x) xs).2.length = _
      rw [List.length_cons]
      by_cases hopen : kept.length + 1 < n
      · have hpush : push n f (s, kept) x = (s, kept ++ [x]) := if_pos hopen
        rw [hpush, ih s (kept ++ [x]) (by simpa using hopen)]
        rw [List.length_append, List.length_singleton]
        congr 1
        omega
      · have hpush : push n f (s, kept) x = (f s (kept ++ [x]), []) :=
          if_neg hopen
        have hsum : kept.length + (xs.length + 1) = xs.length + n := by omega
        rw [hpush, ih _ [] hpos, hsum, Nat.add_mod_right, List.length_nil,
          Nat.zero_add]

end Blocks
