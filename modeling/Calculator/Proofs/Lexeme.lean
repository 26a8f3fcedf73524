import Calculator.Token.Scan

/-!
# The lexemes that are found

Scanning makes two sorts of token: number literals, and symbols of one character.
Neither holds white space, and a bracket is always a token of its own.

## Main definitions

* `Token.Lexed` — the tokens that scanning makes.
* `IsBracket bracket kind` — the brackets, with their kinds.

## Main results

* `scan_lexed` — scanning makes no others.
* `Token.Lexed.scanFrom_append` — it makes them where their lexemes stand.
* `scanFrom_chars` — the characters of text that is scanned.
* `Token.Lexed.isWord` — their lexemes are words.
* `Token.Lexed.mem_eq_iff` — a bracket in a lexeme is the whole lexeme.
-/

namespace Calculator

/-- A token as scanning makes it. -/
inductive Token.Lexed : Token → Prop
  /-- A number literal with its value. -/
  | number {run : List Char} {value : Decimal} {position : Nat} (hne : run ≠ [])
      (hrun : ∀ c ∈ run, isLiteralChar c = true) (hvalue : literal? run = some value) :
      Lexed ⟨.number value.toFloat, String.ofList run, position⟩
  /-- A character that is a token of its own. -/
  | symbol {c : Char} {kind : Kind} {position : Nat} (hc : symbolKind? c = some kind) :
      Lexed ⟨kind, String.singleton c, position⟩

/-! ### Scanning makes lexed tokens -/

theorem map_cons_eq_ok {ε α : Type} {x : Except ε (List α)} {a : α} {as : List α}
    (h : x.map (a :: ·) = .ok as) : ∃ rest, x = .ok rest ∧ as = a :: rest := by
  cases x with
  | error e => cases h
  | ok rest => exact ⟨rest, rfl, by simpa [Except.map] using h.symm⟩

theorem scanFrom_lexed {position : Nat} {cs : List Char} :
    ∀ {tokens : List Token}, scanFrom position cs = .ok tokens → ∀ t ∈ tokens, t.Lexed := by
  fun_induction scanFrom position cs with
  | case1 position =>
    rintro tokens ⟨⟩
    simp
  | case2 position c rest hc hvalue => nofun
  | case3 position c rest hc run value hvalue =>
    rename_i ih
    intro tokens h
    obtain ⟨others, hothers, rfl⟩ := map_cons_eq_ok h
    -- the run is the longest one, so its characters passed the test
    have hrun : ∀ d ∈ run, isLiteralChar d = true :=
      List.forall_mem_cons.2 ⟨hc, List.all_eq_true.1 List.all_takeWhile⟩
    exact List.forall_mem_cons.2 ⟨.number (by simp [run]) hrun hvalue, ih hothers⟩
  | case4 position c rest hc kind hkind ih =>
    intro tokens h
    obtain ⟨others, hothers, rfl⟩ := map_cons_eq_ok h
    exact List.forall_mem_cons.2 ⟨.symbol hkind, ih hothers⟩
  | case5 position c rest hc hkind hblank ih => exact ih
  | case6 position c rest hc hkind hblank => nofun

theorem mapError_eq_ok {ε ε' α : Type} {x : Except ε α} {f : ε → ε'} {a : α} :
    x.mapError f = .ok a ↔ x = .ok a := by
  cases x with
  | error e => exact iff_of_false nofun nofun
  | ok b =>
    show (Except.ok b : Except ε' α) = .ok a ↔ _
    rw [Except.ok.injEq, Except.ok.injEq]

theorem mapError_eq_error {ε ε' α : Type} {x : Except ε α} {f : ε → ε'} {e : ε'} :
    x.mapError f = .error e ↔ ∃ d, x = .error d ∧ f d = e := by
  constructor
  · intro h
    cases x with
    | error d => exact ⟨d, rfl, Except.error.inj h⟩
    | ok a => cases h
  · rintro ⟨d, rfl, rfl⟩
    rfl

/-- Scanning makes no other tokens. -/
theorem scan_lexed {source : String} {tokens : List Token} (h : scan source = .ok tokens) :
    ∀ t ∈ tokens, t.Lexed := by
  rw [scan, mapError_eq_ok] at h
  exact scanFrom_lexed h

/-! ### Lexemes are words -/

/-- A word is a text with something in it and no white space. -/
structure IsWord (w : List Char) : Prop where
  /-- There is something in it. -/
  ne_nil : w ≠ []
  /-- None of it is white space. -/
  not_blank : ∀ c ∈ w, isBlank c = false

theorem isBlank_of_isLiteralChar {c : Char} (h : isLiteralChar c = true) :
    isBlank c = false := by
  rw [isLiteralChar, Bool.or_eq_true, beq_iff_eq] at h
  rcases h with hdigit | rfl
  · obtain ⟨hlo, hhi⟩ : 48 ≤ c.toNat ∧ c.toNat ≤ 57 := by
      simpa [Char.isDigit, UInt32.le_iff_toNat_le] using hdigit
    rw [isBlank, ← Bool.not_eq_true, Ranges.contains_iff]
    simp [blankRanges]
    omega
  · decide

/-- All the digits and points that stand together, where those of a lexeme end. -/
theorem takeWhile_isLiteralChar {lexeme behind : List Char}
    (hlexeme : ∀ c ∈ lexeme, isLiteralChar c = true)
    (hbehind : ∀ c ∈ behind.head?, isLiteralChar c = false) :
    (lexeme ++ behind).takeWhile isLiteralChar = lexeme ∧
      (lexeme ++ behind).dropWhile isLiteralChar = behind := by
  rw [List.takeWhile_append_of_pos hlexeme, List.dropWhile_append_of_pos hlexeme]
  cases behind with
  | nil => simp
  | cons c behind => simp [hbehind c rfl]

theorem isDigit_of_isLiteralChar {c : Char} (h : isLiteralChar c = true)
    (hc : c ≠ decimalPoint) : c.isDigit = true := by
  rw [isLiteralChar, Bool.or_eq_true, beq_iff_eq] at h
  exact h.resolve_right hc

theorem isLiteral_of_literal? {run : List Char} {value : Decimal}
    (h : literal? run = some value) : IsLiteral run := by
  by_cases hrun : IsLiteral run
  · exact hrun
  · rw [literal?_eq_none hrun] at h
    cases h

theorem symbolKind?_cases {c : Char} {kind : Kind} (h : symbolKind? c = some kind) :
    ((c = '+' ∨ c = '-' ∨ c = '*' ∨ c = '/') ∧ kind = .operator) ∨
      (c = '(' ∧ kind = .openBracket) ∨ (c = ')' ∧ kind = .closeBracket) := by
  rw [symbolKind?] at h
  by_cases hop : c = '+' ∨ c = '-' ∨ c = '*' ∨ c = '/'
  · simp_all
  · by_cases hopen : c = '('
    · simp_all
    · by_cases hclose : c = ')' <;> simp_all

/-- What is a symbol is no part of a number literal, and no white space. -/
theorem isLiteralChar_of_symbolKind? {c : Char} {kind : Kind}
    (h : symbolKind? c = some kind) : isLiteralChar c = false ∧ isBlank c = false := by
  rcases symbolKind?_cases h with ⟨rfl | rfl | rfl | rfl, -⟩ | ⟨rfl, -⟩ | ⟨rfl, -⟩ <;> decide

/-- White space is passed over, since it is no part of a number and no symbol. -/
theorem scanFrom_cons_of_isBlank {c : Char} (hc : isBlank c = true) (position : Nat)
    (rest : List Char) : scanFrom position (c :: rest) = scanFrom (position + 1) rest := by
  have hliteral : isLiteralChar c = false := by
    rw [← Bool.not_eq_true]
    intro hpart
    rw [isBlank_of_isLiteralChar hpart] at hc
    cases hc
  have hsymbol : symbolKind? c = none := by
    rw [Option.eq_none_iff_forall_ne_some]
    intro kind hkind
    rw [(isLiteralChar_of_symbolKind? hkind).2] at hc
    cases hc
  exact scanFrom_cons_blank hliteral hsymbol hc position rest

theorem scanFrom_cons_symbol {c : Char} {kind : Kind} (hc : symbolKind? c = some kind)
    (position : Nat) (rest : List Char) :
    scanFrom position (c :: rest) =
      (scanFrom (position + 1) rest).map (⟨kind, String.singleton c, position⟩ :: ·) := by
  rw [scanFrom]
  simp [(isLiteralChar_of_symbolKind? hc).1, hc]

/-- A token is found where its lexeme stands, provided that a number is not gone on with
behind it. -/
theorem Token.Lexed.scanFrom_append {t : Token} (h : t.Lexed) (position : Nat) {rest : List Char}
    (hrest : ∀ value, t.kind = .number value → ∀ c ∈ rest.head?, isLiteralChar c = false) :
    scanFrom position (t.lexeme.toList ++ rest) =
      (scanFrom (position + t.lexeme.length) rest).map
        (⟨t.kind, t.lexeme, position⟩ :: ·) := by
  cases h with
  | @number run value _ hne hrun hvalue =>
    obtain ⟨c, run, rfl⟩ := List.exists_cons_of_ne_nil hne
    obtain ⟨hc, hrun⟩ := List.forall_mem_cons.1 hrun
    obtain ⟨htake, hdrop⟩ := takeWhile_isLiteralChar hrun (hrest _ rfl)
    rw [String.toList_ofList, String.length_ofList, List.cons_append, scanFrom]
    simp only [hc, if_true, htake, hdrop, hvalue]
  | @symbol c kind _ hc =>
    rw [String.toList_singleton, String.length_singleton, List.singleton_append,
      scanFrom_cons_symbol hc]

/-- The lexeme of a token is a text of that token alone. -/
theorem Token.Lexed.scanFrom_lexeme {t : Token} (h : t.Lexed) (position : Nat) :
    scanFrom position t.lexeme.toList = .ok [⟨t.kind, t.lexeme, position⟩] := by
  have hend : ∀ value, t.kind = .number value → ∀ c ∈ ([] : List Char).head?,
      isLiteralChar c = false := by
    rintro _ _ c ⟨⟩
  have happend := h.scanFrom_append position hend
  rw [List.append_nil, scanFrom_nil] at happend
  exact happend

/-- Scanned text is made of digits, points, symbols and white space. -/
theorem scanFrom_chars {position : Nat} {cs : List Char} {tokens : List Token} :
    scanFrom position cs = .ok tokens → ∀ c ∈ cs,
      isLiteralChar c = true ∨ (symbolKind? c).isSome = true ∨ isBlank c = true := by
  fun_induction scanFrom position cs generalizing tokens with
  | case1 position => simp
  | case2 position c rest hc hvalue => nofun
  | case3 position c rest hc run value hvalue =>
    rename_i ih
    intro h
    obtain ⟨others, hothers, -⟩ := map_cons_eq_ok h
    intro d hd
    rcases List.mem_cons.1 hd with rfl | hd
    · exact Or.inl hc
    · -- it is in the run, or behind it
      rw [← List.takeWhile_append_dropWhile (p := isLiteralChar) (l := rest)] at hd
      rcases List.mem_append.1 hd with hrun | hbehind
      · exact Or.inl (List.all_eq_true.1 List.all_takeWhile d hrun)
      · exact ih hothers d hbehind
  | case4 position c rest hc kind hkind ih =>
    intro h
    obtain ⟨others, hothers, -⟩ := map_cons_eq_ok h
    exact List.forall_mem_cons.2 ⟨Or.inr (Or.inl (by rw [hkind]; rfl)), ih hothers⟩
  | case5 position c rest hc hkind hblank ih =>
    intro h
    exact List.forall_mem_cons.2 ⟨Or.inr (Or.inr hblank), ih h⟩
  | case6 position c rest hc hkind hblank => nofun

theorem Token.Lexed.isWord {t : Token} (h : t.Lexed) : IsWord t.lexeme.toList := by
  cases h with
  | number hne hrun hvalue =>
    rw [String.toList_ofList]
    exact ⟨hne, fun c hc => isBlank_of_isLiteralChar (hrun c hc)⟩
  | symbol hc =>
    rw [String.toList_singleton]
    exact ⟨by simp, by simpa using (isLiteralChar_of_symbolKind? hc).2⟩

/-! ### Where brackets stand -/

/-- A bracket, with the kind of the tokens that it makes. -/
inductive IsBracket : Char → Kind → Prop
  /-- What opens a bracket. -/
  | opening : IsBracket '(' .openBracket
  /-- What closes one. -/
  | closing : IsBracket ')' .closeBracket

variable {bracket : Char} {kind : Kind}

/-- Each kind of bracket is made by one symbol. -/
theorem IsBracket.symbolKind?_eq_iff (hb : IsBracket bracket kind) (c : Char) :
    symbolKind? c = some kind ↔ c = bracket := by
  constructor
  · intro h
    rcases symbolKind?_cases h with ⟨-, rfl⟩ | ⟨hc, rfl⟩ | ⟨hc, rfl⟩
    · cases hb
    · cases hb
      exact hc
    · cases hb
      exact hc
  · rintro rfl
    cases hb <;> decide

/-- A bracket in a lexeme is the whole lexeme, and the kind of the token tells. -/
theorem Token.Lexed.mem_eq_iff {t : Token} (h : t.Lexed) (hb : IsBracket bracket kind) {c : Char}
    (hc : c ∈ t.lexeme.toList) : c = bracket ↔ t.kind = kind := by
  have hbracket : symbolKind? bracket = some kind := (hb.symbolKind?_eq_iff bracket).2 rfl
  cases h with
  | number hne hrun hvalue =>
    rw [String.toList_ofList] at hc
    refine iff_of_false (fun heq => ?_) (fun heq => ?_)
    · have hliteral := hrun c hc
      rw [heq, (isLiteralChar_of_symbolKind? hbracket).1] at hliteral
      cases hliteral
    · rw [← heq] at hb
      cases hb
  | @symbol d kind' position hd =>
    obtain rfl : c = d := by simpa using hc
    rw [← hb.symbolKind?_eq_iff, hd, Option.some_inj]

/-- The same as a test of each character. -/
theorem Token.Lexed.beq_bracket {t : Token} (h : t.Lexed) (hb : IsBracket bracket kind) :
    ∀ c ∈ t.lexeme.toList, (c == bracket) = decide (t.kind = kind) := by
  intro c hc
  rw [Bool.eq_iff_iff, beq_iff_eq, decide_eq_true_eq]
  exact h.mem_eq_iff hb hc

end Calculator
