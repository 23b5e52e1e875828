/-!
# String literals in SQL text

A lexer that separates single-quoted literals from the rest of a statement.
Inside a literal a backslash begins an escape and two quotes stand for one;
text outside is kept byte for byte.  A text that was made by putting strings
between quotes as they are is read back as these strings exactly when each of
them is plain and nothing was cut off.
-/

namespace SqlText

/-- A byte outside of literals, or a literal's value. -/
inductive Token where
  | char (c : UInt8)
  | str (s : List UInt8)
  deriving DecidableEq

/-- The value of a literal. -/
def Token.literal : Token → Option (List UInt8)
  | .char _ => none
  | .str s => some s

/-- What a backslash makes of the byte after it; `\%` and `\_` stay as they
are. -/
def escape (c : UInt8) : List UInt8 :=
  if c = 48 then [0]
  else if c = 98 then [8]
  else if c = 110 then [10]
  else if c = 114 then [13]
  else if c = 116 then [9]
  else if c = 90 then [26]
  else if c = 37 ∨ c = 95 then [92, c]
  else [c]

/-- Read a text; `some s` is the value so far of the literal that the text
begins in.  A literal that does not end is an error. -/
def lex : Option (List UInt8) → List UInt8 → Option (List Token)
  | none, [] => some []
  | some _, [] => none
  | none, c :: rest =>
      if c = 39 then lex (some []) rest
      else (lex none rest).map (.char c :: ·)
  | some s, [c] =>
      if c = 39 then some [.str s] else none
  | some s, c :: e :: rest =>
      if c = 92 then lex (some (s ++ escape e)) rest
      else if c = 39 then
        if e = 39 then lex (some (s ++ [39])) rest
        else (lex none (e :: rest)).map (.str s :: ·)
      else lex (some (s ++ [c])) (e :: rest)

/-- The text of tokens, with the literals' values put between quotes as they
are. -/
def render : List Token → List UInt8
  | [] => []
  | .char c :: toks => c :: render toks
  | .str s :: toks => 39 :: (s ++ 39 :: render toks)

/-- No quote, and no backslash but in `\%` and `\_`. -/
def plain : List UInt8 → Bool
  | [] => true
  | [c] => c ≠ 39 ∧ c ≠ 92
  | c :: e :: rest =>
      if c = 92 then (e = 37 ∨ e = 95) ∧ plain rest
      else c ≠ 39 ∧ plain (e :: rest)

/-- Every literal's value is plain. -/
def Plain (toks : List Token) : Prop := ∀ s, .str s ∈ toks → plain s = true

/-- A template: no quote outside the literals, and no two literals in a
row. -/
def Shape : List Token → Prop
  | [] => True
  | .char c :: toks => c ≠ 39 ∧ Shape toks
  | [.str _] => True
  | .str _ :: .str _ :: _ => False
  | .str _ :: .char c :: toks => c ≠ 39 ∧ Shape toks

/-! ## Plain values -/

theorem plain_cons {c : UInt8} (hquote : c ≠ 39) (hslash : c ≠ 92)
    (s : List UInt8) : plain (c :: s) = plain s := by
  cases s with
  | nil => simp [plain, hquote, hslash]
  | cons e rest => simp [plain, hquote, hslash]

theorem escape_length (c : UInt8) : (escape c).length ≤ 2 := by
  unfold escape
  repeat' split
  all_goals simp

/-- Only two escapes do not make the text shorter. -/
theorem escape_eq {c : UInt8} (h : 2 ≤ (escape c).length) :
    escape c = [92, c] ∧ (c = 37 ∨ c = 95) := by
  by_cases hkeep : c = 37 ∨ c = 95
  · refine ⟨?_, hkeep⟩
    rcases hkeep with rfl | rfl <;> rfl
  · simp only [escape, hkeep, if_false] at h
    repeat' split at h
    all_goals exact absurd h (by simp)

theorem plain_escape {c : UInt8} (h : c = 37 ∨ c = 95) (s : List UInt8) :
    plain (92 :: c :: s) = plain s := by
  simp [plain, h]

/-! ## Reading gives no more than there is -/

/-- What the result of `lex` says about the text: the tokens' own text is not
longer, and only plain literals are as long as what they were read from. -/
def Reads : Option (List UInt8) → List UInt8 → List Token → Prop
  | none, text, toks =>
      (render toks).length ≤ text.length ∧
        (text.length ≤ (render toks).length → text = render toks ∧ Plain toks)
  | some s, text, toks =>
      ∃ s' rest, toks = .str (s ++ s') :: rest ∧
        (s' ++ 39 :: render rest).length ≤ text.length ∧
        (text.length ≤ (s' ++ 39 :: render rest).length →
          text = s' ++ 39 :: render rest ∧ plain s' = true ∧ Plain rest)

theorem Reads.char {c : UInt8} {text : List UInt8} {toks : List Token}
    (h : Reads none text toks) : Reads none (c :: text) (.char c :: toks) := by
  refine ⟨Nat.succ_le_succ h.1, fun hle => ?_⟩
  obtain ⟨htext, hplain⟩ := h.2 (Nat.le_of_succ_le_succ hle)
  refine ⟨by rw [htext, render], fun s hs => hplain s ?_⟩
  simpa using hs

theorem Reads.opened {text : List UInt8} {toks : List Token}
    (h : Reads (some []) text toks) : Reads none (39 :: text) toks := by
  obtain ⟨s, rest, rfl, hlen, hexact⟩ := h
  refine ⟨Nat.succ_le_succ hlen, fun hle => ?_⟩
  obtain ⟨htext, hs, hplain⟩ := hexact (Nat.le_of_succ_le_succ hle)
  refine ⟨by rw [htext]; rfl, fun s' hs' => ?_⟩
  rcases List.mem_cons.mp hs' with heq | hmem
  · cases heq
    exact hs
  · exact hplain s' hmem

theorem Reads.closed {s text : List UInt8} {toks : List Token}
    (h : Reads none text toks) :
    Reads (some s) (39 :: text) (.str s :: toks) := by
  refine ⟨[], toks, by rw [List.append_nil], Nat.succ_le_succ h.1,
    fun hle => ?_⟩
  obtain ⟨htext, hplain⟩ := h.2 (Nat.le_of_succ_le_succ hle)
  exact ⟨by rw [htext]; rfl, rfl, hplain⟩

/-- What stands for some bytes of the value. -/
theorem Reads.inside {s value text : List UInt8} {toks : List Token}
    (raw : List UInt8) (h : Reads (some (s ++ value)) text toks)
    (hlen : value.length ≤ raw.length)
    (hexact : raw.length ≤ value.length →
      raw = value ∧ ∀ s', plain (value ++ s') = plain s') :
    Reads (some s) (raw ++ text) toks := by
  obtain ⟨s', rest, rfl, hle, htail⟩ := h
  refine ⟨value ++ s', rest, by rw [List.append_assoc], ?_, fun hge => ?_⟩
  · simp only [List.length_append] at hle ⊢
    omega
  · simp only [List.append_assoc, List.length_append] at hle hge
    obtain ⟨hraw, hplain⟩ := hexact (by omega)
    obtain ⟨htext, hs, hrest⟩ := htail (by
      simp only [List.length_append]
      omega)
    exact ⟨by rw [hraw, htext, List.append_assoc], by rw [hplain, hs], hrest⟩

theorem lex_reads {st : Option (List UInt8)} {text : List UInt8}
    {toks : List Token} (h : lex st text = some toks) : Reads st text toks := by
  induction st, text using lex.induct generalizing toks with
  | case1 =>
      cases h
      exact ⟨Nat.le_refl _, fun _ => ⟨rfl, nofun⟩⟩
  | case2 s => cases h
  | case3 rest ih =>
      rw [lex, if_pos rfl] at h
      exact (ih h).opened
  | case4 c rest hc ih =>
      rw [lex, if_neg hc, Option.map_eq_some_iff] at h
      obtain ⟨toks', htoks, rfl⟩ := h
      exact (ih htoks).char
  | case5 s =>
      rw [lex, if_pos rfl] at h
      cases h
      exact Reads.closed ⟨Nat.le_refl _, fun _ => ⟨rfl, nofun⟩⟩
  | case6 s c hc =>
      rw [lex, if_neg hc] at h
      cases h
  | case7 s e rest ih =>
      rw [lex, if_pos rfl] at h
      refine .inside [92, e] (ih h) (escape_length e) fun hle => ?_
      obtain ⟨heq, hkeep⟩ := escape_eq hle
      rw [heq]
      exact ⟨rfl, plain_escape hkeep⟩
  | case8 s rest hslash ih =>
      rw [lex, if_neg hslash, if_pos rfl, if_pos rfl] at h
      exact .inside [39, 39] (ih h) (by simp)
        fun hle => absurd hle (by simp)
  | case9 s e rest hslash he ih =>
      rw [lex, if_neg hslash, if_pos rfl, if_neg he,
        Option.map_eq_some_iff] at h
      obtain ⟨toks', htoks, rfl⟩ := h
      exact (ih htoks).closed
  | case10 s c e rest hslash hquote ih =>
      rw [lex, if_neg hslash, if_neg hquote] at h
      exact .inside [c] (ih h) (Nat.le_refl _)
        fun _ => ⟨rfl, plain_cons hquote hslash⟩

/-! ## Plain text is read back -/

theorem lex_literal {s : List UInt8} (hplain : plain s = true)
    {text : List UInt8} {toks : List Token} (h : lex none text = some toks)
    (hquote : text.head? ≠ some 39) (before : List UInt8) :
    lex (some before) (s ++ 39 :: text) = some (.str (before ++ s) :: toks) := by
  have hclose : ∀ before, lex (some before) (39 :: text) =
      some (.str before :: toks) := by
    intro before
    cases text with
    | nil =>
        cases h
        rfl
    | cons e rest =>
        have he : e ≠ 39 := fun he => hquote (he ▸ rfl)
        rw [lex, if_neg (by decide), if_pos rfl, if_neg he, h, Option.map_some]
  induction s using plain.induct generalizing before with
  | case1 =>
      rw [List.append_nil]
      exact hclose before
  | case2 c =>
      simp only [plain, decide_eq_true_eq] at hplain
      rw [List.cons_append, List.nil_append, lex, if_neg hplain.2,
        if_neg hplain.1]
      exact hclose _
  | case3 e rest ih =>
      simp only [plain, if_true, decide_eq_true_eq] at hplain
      have hescape : escape e = [92, e] := by
        rcases hplain.1 with rfl | rfl <;> rfl
      rw [List.cons_append, List.cons_append, lex, if_pos rfl,
        ih hplain.2, hescape, List.append_assoc]
      rfl
  | case4 c e rest hslash ih =>
      simp only [plain, if_neg hslash, decide_eq_true_eq] at hplain
      rw [List.cons_append, List.cons_append, lex, if_neg hslash,
        if_neg hplain.1, ← List.cons_append, ih hplain.2, List.append_assoc]
      rfl

theorem Plain.tail {tok : Token} {toks : List Token} (h : Plain (tok :: toks)) :
    Plain toks := fun s hs => h s (List.mem_cons_of_mem tok hs)

theorem lex_render {toks : List Token} (hshape : Shape toks)
    (hplain : Plain toks) : lex none (render toks) = some toks := by
  induction toks using Shape.induct with
  | case1 => rfl
  | case2 c toks ih =>
      rw [render, lex, if_neg hshape.1, ih hshape.2 hplain.tail,
        Option.map_some]
  | case3 s =>
      rw [render, lex, if_pos rfl]
      exact lex_literal (hplain s List.mem_cons_self) rfl (by simp [render]) []
  | case4 s s' toks => exact hshape.elim
  | case5 s c toks ih =>
      rw [render, lex, if_pos rfl]
      refine lex_literal (hplain s List.mem_cons_self) ?_ ?_ []
      · rw [render, lex, if_neg hshape.1, ih hshape.2 hplain.tail.tail,
          Option.map_some]
      · rw [render, List.head?_cons, ne_eq, Option.some.injEq]
        exact hshape.1

/-- The first `n` bytes of a text with strings between quotes are read as
these strings exactly when they are the whole text and the strings are
plain. -/
theorem lex_take_iff {toks : List Token} (hshape : Shape toks) (n : Nat) :
    lex none ((render toks).take n) = some toks ↔
      (render toks).length ≤ n ∧ Plain toks := by
  constructor
  · intro h
    obtain ⟨htext, hplain⟩ := (lex_reads h).2 (by
      rw [List.length_take]
      exact Nat.min_le_right _ _)
    refine ⟨?_, hplain⟩
    rw [← htext, List.length_take]
    exact Nat.min_le_left _ _
  · rintro ⟨hlen, hplain⟩
    rw [List.take_of_length_le hlen]
    exact lex_render hshape hplain

/-- Strings between quotes are read as themselves exactly when they are
plain. -/
theorem lex_render_iff {toks : List Token} (hshape : Shape toks) :
    lex none (render toks) = some toks ↔ Plain toks := by
  have htake := lex_take_iff hshape (render toks).length
  rw [List.take_length] at htake
  rw [htake]
  exact and_iff_right (Nat.le_refl _)

/-- What is read is not longer than the text. -/
theorem length_render_le {text : List UInt8} {toks : List Token}
    (h : lex none text = some toks) : (render toks).length ≤ text.length :=
  (lex_reads h).1

/-- A literal that ends. -/
theorem lex_close (s : List UInt8) {e : UInt8} (he : e ≠ 39)
    (rest : List UInt8) : lex (some s) (39 :: e :: rest) =
      (lex none (e :: rest)).map (.str s :: ·) := by
  conv => lhs; rw [lex]
  rw [if_neg (by decide), if_pos rfl, if_neg he]

/-! ## Putting templates together -/

/-- Text outside literals. -/
def chars (s : List UInt8) : List Token := s.map .char

theorem render_append (toks toks' : List Token) :
    render (toks ++ toks') = render toks ++ render toks' := by
  induction toks with
  | nil => rfl
  | cons tok toks ih => cases tok <;> simp [render, ih]

theorem chars_injective {s t : List UInt8} (h : chars s = chars t) :
    s = t := by
  refine (List.map_inj_right ?_).mp h
  intro c e hce
  cases hce
  rfl

theorem findSome_chars (s : List UInt8) :
    (chars s).findSome? Token.literal = none := by
  rw [List.findSome?_eq_none_iff]
  intro tok htok
  obtain ⟨c, _, rfl⟩ := List.mem_map.mp htok
  rfl

/-- What stands before the first literal. -/
theorem takeWhile_chars (s t : List UInt8) (toks : List Token) :
    (chars s ++ .str t :: toks).takeWhile (fun tok => tok.literal.isNone) =
      chars s := by
  rw [List.takeWhile_append_of_pos]
  · rw [List.takeWhile_cons_of_neg (by simp [Token.literal]),
      List.append_nil]
  · intro tok htok
    obtain ⟨c, _, rfl⟩ := List.mem_map.mp htok
    rfl

/-- Text before the first literal. -/
theorem lex_chars {s : List UInt8} (hs : 39 ∉ s) (text : List UInt8) :
    lex none (s ++ text) = (lex none text).map (chars s ++ ·) := by
  induction s with
  | nil => simp [chars]
  | cons c s ih =>
      rw [List.mem_cons, not_or] at hs
      have hc : c ≠ 39 := fun hc => hs.1 hc.symm
      rw [List.cons_append, lex, if_neg hc, ih hs.2, Option.map_map]
      rfl

theorem render_chars (s : List UInt8) : render (chars s) = s := by
  induction s with
  | nil => rfl
  | cons c s ih => rw [chars, List.map_cons, render, ← chars, ih]

end SqlText
