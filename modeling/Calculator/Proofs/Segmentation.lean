import Calculator.Proofs.Lexeme
import Calculator.Slice
import Mathlib.Data.List.TakeWhile

/-!
# How tokens divide a text

Scanning divides a text into the spans of its tokens and white space between them: no
character is lost, and none is used twice.  A number takes up all the digits and points
that stand together, so the division is the only one there is.

The proof goes along the text.  From each place on, what is left to be scanned and what
is left to be divided begin with the same token, or with white space.

## Main definitions

* `Token.stop`, `Token.content` — the end of the span of a token, and what the token holds.
* `Token.IsNumberIn`, `Token.ReadsAs` — what a token can be in a text.
* `Token.WrittenIn` — a token is written in a text at its place.
* `Segments cs start tokens` — tokens divide a text from a place on.

## Main results

* `Token.WrittenIn.eq_number`, `Token.WrittenIn.eq_symbol` — what is written at a place is
  told from the text.
* `Segments.skip_iff`, `Segments.cons_iff` — divisions step by step.
* `scanFrom_eq_ok_iff` — scanning and dividing agree from every place on.
* `scan_eq_ok_iff_segments` — **scanning divides a text, and there is no other division**.
-/

namespace Calculator

/-- The place behind the last character of a token. -/
def Token.stop (t : Token) : Nat := t.position + t.lexeme.length

/-- What a token holds: a number its value, any other token its lexeme. -/
def Token.content (t : Token) : Float ⊕ String :=
  match t.kind with
  | .number value => .inl value
  | _ => .inr t.lexeme

/-- A token is a number in a text: digits and points, with a digit and no second point;
all the digits and points that stand together there; and its value is the one that the
lexeme denotes. -/
structure Token.IsNumberIn (cs : List Char) (t : Token) : Prop where
  /-- It holds the value of its lexeme. -/
  content_eq : t.content = .inl (literalValue t.lexeme.toList).toFloat
  /-- The lexeme is made of digits and points. -/
  chars : ∀ c ∈ t.lexeme.toList, isLiteralChar c = true
  /-- It has a digit. -/
  digit : ∃ c ∈ t.lexeme.toList, c.isDigit = true
  /-- It has one point at most. -/
  point : t.lexeme.toList.count decimalPoint ≤ 1
  /-- It does not go on to the left. -/
  before : ∀ i c, i + 1 = t.position → cs[i]? = some c → isLiteralChar c = false
  /-- It does not go on to the right. -/
  behind : ∀ c, cs[t.stop]? = some c → isLiteralChar c = false

/-- What a token can be in a text: a symbol, which holds its own lexeme, or a number. -/
inductive Token.ReadsAs (cs : List Char) (t : Token) : Prop
  /-- An operator or a sign. -/
  | operator (hkind : t.kind = .operator) (hlexeme : t.lexeme ∈ ["+", "-", "*", "/"])
      (hcontent : t.content = .inr t.lexeme)
  /-- A bracket that opens. -/
  | openBracket (hkind : t.kind = .openBracket) (hlexeme : t.lexeme = "(")
      (hcontent : t.content = .inr t.lexeme)
  /-- A bracket that closes. -/
  | closeBracket (hkind : t.kind = .closeBracket) (hlexeme : t.lexeme = ")")
      (hcontent : t.content = .inr t.lexeme)
  /-- A number. -/
  | number (h : t.IsNumberIn cs)

/-- A token is written in a text at its place. -/
structure Token.WrittenIn (cs : List Char) (t : Token) : Prop where
  /-- There is something in its lexeme. -/
  ne_empty : t.lexeme ≠ ""
  /-- The lexeme is what stands at the place. -/
  slice_eq : slice t.position t.stop cs = t.lexeme.toList
  /-- It is a symbol or a number. -/
  readsAs : t.ReadsAs cs

/-- Tokens divide a text from the place `start` on: they are written in it, one behind
the other, and all other characters are white space. -/
structure Segments (cs : List Char) (start : Nat) (tokens : List Token) : Prop where
  /-- The tokens are written in the text. -/
  written : ∀ t ∈ tokens, start ≤ t.position ∧ t.WrittenIn cs
  /-- Each begins where those before it have ended. -/
  ordered : tokens.Pairwise fun a b => a.stop ≤ b.position
  /-- What is in no token is white space. -/
  blank : ∀ i c, start ≤ i → cs[i]? = some c →
    (∀ t ∈ tokens, ¬ (t.position ≤ i ∧ i < t.stop)) → isBlank c = true

variable {cs rest : List Char} {c : Char} {start : Nat} {t : Token} {tokens : List Token}

/-! ### What is written at a place -/

/-- A slice is what is taken from its start on. -/
theorem slice_natCast {α : Type} (start size : Nat) (xs : List α) :
    slice (start : Int) ((start + size : Nat) : Int) xs = (xs.drop start).take size := by
  rw [slice_eq_drop_take, List.drop_take, Nat.add_sub_cancel_left]

/-- A lexeme stands at its place when the text goes on with it there. -/
theorem Token.slice_eq_iff (t : Token) (cs : List Char) :
    slice t.position t.stop cs = t.lexeme.toList ↔
      cs.drop t.position = t.lexeme.toList ++ cs.drop t.stop := by
  rw [stop, slice_natCast, ← List.drop_drop, ← String.length_toList]
  constructor
  · intro h
    calc cs.drop t.position
        = (cs.drop t.position).take t.lexeme.toList.length ++
            (cs.drop t.position).drop t.lexeme.toList.length := (List.take_append_drop ..).symm
      _ = t.lexeme.toList ++ (cs.drop t.position).drop t.lexeme.toList.length := by rw [h]
  · intro h
    rw [h, List.take_left]

theorem Token.WrittenIn.drop_eq (h : t.WrittenIn cs) :
    cs.drop t.position = t.lexeme.toList ++ cs.drop t.stop := (t.slice_eq_iff cs).1 h.slice_eq

theorem Token.WrittenIn.position_lt_stop (h : t.WrittenIn cs) : t.position < t.stop := by
  have hpos : 0 < t.lexeme.length := by
    rw [Nat.pos_iff_ne_zero, ne_eq, String.length_eq_zero_iff]
    exact h.ne_empty
  exact Nat.lt_add_of_pos_right hpos

/-- A run of digits and points with a digit is a literal if it has no second point. -/
theorem isLiteral_of_digit {run : List Char} (hdigit : ∃ c ∈ run, c.isDigit = true)
    (hpoint : run.count decimalPoint ≤ 1) : IsLiteral run := by
  refine ⟨hpoint, ?_⟩
  rintro rfl
  obtain ⟨c, hc, hdigit⟩ := hdigit
  rw [List.mem_singleton.1 hc] at hdigit
  cases hdigit

/-- A literal has a digit. -/
theorem exists_digit_of_isLiteral {run : List Char} (hne : run ≠ [])
    (hrun : ∀ c ∈ run, isLiteralChar c = true) (h : IsLiteral run) :
    ∃ c ∈ run, c.isDigit = true := by
  by_contra hnone
  have hpoints : ∀ c ∈ run, c = decimalPoint := by
    intro c hc
    by_contra hpoint
    exact hnone ⟨c, hc, isDigit_of_isLiteralChar (hrun c hc) hpoint⟩
  -- a literal has room for one point only, and is not the point alone
  obtain ⟨n, hn⟩ : ∃ n, run = List.replicate n decimalPoint :=
    ⟨run.length, List.eq_replicate_of_mem hpoints⟩
  obtain ⟨hcount, hpoint⟩ := h
  rw [hn, List.count_replicate_self] at hcount
  rcases Nat.le_one_iff_eq_zero_or_eq_one.1 hcount with rfl | rfl
  · exact hne hn
  · exact hpoint hn

/-! ### Symbols and numbers -/

/-- A token is a symbol, told by its one character, or a number. -/
theorem Token.ReadsAs.symbol_or_number (h : t.ReadsAs cs) :
    (∃ c, t.lexeme = String.singleton c ∧ symbolKind? c = some t.kind) ∨ t.IsNumberIn cs := by
  cases h with
  | operator hkind hlexeme _ =>
    rw [hkind]
    simp only [List.mem_cons, List.not_mem_nil, or_false] at hlexeme
    rcases hlexeme with h | h | h | h
    · exact Or.inl ⟨'+', h, by decide⟩
    · exact Or.inl ⟨'-', h, by decide⟩
    · exact Or.inl ⟨'*', h, by decide⟩
    · exact Or.inl ⟨'/', h, by decide⟩
  | openBracket hkind hlexeme _ => exact Or.inl ⟨'(', hlexeme, by rw [hkind]; decide⟩
  | closeBracket hkind hlexeme _ => exact Or.inl ⟨')', hlexeme, by rw [hkind]; decide⟩
  | number h => exact Or.inr h

/-- A character that is a token of its own reads as one. -/
theorem readsAs_symbol {kind : Kind} (hc : symbolKind? c = some kind) (position : Nat) :
    (⟨kind, String.singleton c, position⟩ : Token).ReadsAs cs := by
  rcases symbolKind?_cases hc with ⟨hop, rfl⟩ | ⟨rfl, rfl⟩ | ⟨rfl, rfl⟩
  · have hlexeme : String.singleton c ∈ ["+", "-", "*", "/"] := by
      rcases hop with rfl | rfl | rfl | rfl <;> decide
    exact .operator rfl hlexeme rfl
  · exact .openBracket rfl rfl rfl
  · exact .closeBracket rfl rfl rfl

theorem Token.kind_of_content {value : Float} (h : t.content = .inl value) :
    t.kind = .number value := by
  unfold content at h
  split at h
  · rename_i hkind
    rw [hkind, Sum.inl.inj h]
  · cases h

/-- A character at a place that is no part of a number is a symbol, and a token written
there is that symbol. -/
theorem Token.WrittenIn.eq_symbol (h : t.WrittenIn cs) (hdrop : cs.drop t.position = c :: rest)
    (hc : isLiteralChar c = false) :
    ∃ kind, symbolKind? c = some kind ∧ t = ⟨kind, String.singleton c, t.position⟩ := by
  have hhead := h.drop_eq
  rw [hdrop] at hhead
  rcases h.readsAs.symbol_or_number with ⟨d, hlexeme, hkind⟩ | hnumber
  · -- the lexeme has one character, which is the one at the place
    rw [hlexeme, String.toList_singleton, List.singleton_append, List.cons.injEq] at hhead
    obtain ⟨rfl, -⟩ := hhead
    refine ⟨t.kind, hkind, ?_⟩
    rw [← hlexeme]
  · obtain ⟨d, lexeme, hlexeme⟩ : ∃ d lexeme, t.lexeme.toList = d :: lexeme := by
      obtain ⟨d, hd, -⟩ := hnumber.digit
      exact List.exists_cons_of_ne_nil (List.ne_nil_of_mem hd)
    rw [hlexeme, List.cons_append, List.cons.injEq] at hhead
    obtain ⟨rfl, -⟩ := hhead
    have hliteral := hnumber.chars c (by rw [hlexeme]; exact List.mem_cons_self)
    rw [hc] at hliteral
    cases hliteral

/-- A token that is written where a digit or a point stands is the number made of all
digits and points from there on. -/
theorem Token.WrittenIn.eq_number (h : t.WrittenIn cs) (hdrop : cs.drop t.position = c :: rest)
    (hc : isLiteralChar c = true) :
    ∃ value, literal? (c :: rest.takeWhile isLiteralChar) = some value ∧
      t = ⟨.number value.toFloat, String.ofList (c :: rest.takeWhile isLiteralChar),
        t.position⟩ := by
  have hhead := h.drop_eq
  rw [hdrop] at hhead
  rcases h.readsAs.symbol_or_number with ⟨d, hlexeme, hkind⟩ | hnumber
  · rw [hlexeme, String.toList_singleton, List.singleton_append, List.cons.injEq] at hhead
    obtain ⟨rfl, -⟩ := hhead
    rw [(isLiteralChar_of_symbolKind? hkind).1] at hc
    cases hc
  · have hbehind : ∀ d ∈ (cs.drop t.stop).head?, isLiteralChar d = false := by
      intro d hd
      rw [List.head?_drop] at hd
      exact hnumber.behind d hd
    -- the lexeme ends where the digits and points end
    have hrun : c :: rest.takeWhile isLiteralChar = t.lexeme.toList := by
      rw [← (takeWhile_isLiteralChar hnumber.chars hbehind).1, ← hhead,
        List.takeWhile_cons_of_pos hc]
    rw [hrun, String.ofList_toList]
    refine ⟨_, literal?_eq_some (isLiteral_of_digit hnumber.digit hnumber.point), ?_⟩
    rw [← Token.kind_of_content hnumber.content_eq]

/-! ### Tokens that are written -/

theorem Token.stop_singleton (kind : Kind) (c : Char) (position : Nat) :
    (⟨kind, String.singleton c, position⟩ : Token).stop = position + 1 := by
  rw [stop, String.length_singleton]

theorem Token.stop_ofList (kind : Kind) (run : List Char) (position : Nat) :
    (⟨kind, String.ofList run, position⟩ : Token).stop = position + run.length := by
  rw [stop, String.length_ofList]

/-- No number goes on across a place. -/
def Cut (cs : List Char) (place : Nat) : Prop :=
  ∀ i c d, i + 1 = place → cs[i]? = some c → cs[place]? = some d →
    isLiteralChar c = true → isLiteralChar d = false

theorem cut_zero (cs : List Char) : Cut cs 0 := nofun

/-- Behind a character that is no part of a number, no number goes on. -/
theorem cut_succ (hdrop : cs.drop start = c :: rest) (hc : isLiteralChar c = false) :
    Cut cs (start + 1) := by
  intro i b d hi hb hd hliteral
  obtain rfl : i = start := Nat.succ.inj hi
  rw [getElem?_of_drop_eq hdrop, Option.some.injEq] at hb
  rw [← hb, hc] at hliteral
  cases hliteral

/-- A symbol is written where it stands. -/
theorem writtenIn_symbol {kind : Kind} (hdrop : cs.drop start = c :: rest)
    (hc : symbolKind? c = some kind) :
    (⟨kind, String.singleton c, start⟩ : Token).WrittenIn cs where
  ne_empty := by
    rw [ne_eq, ← String.toList_eq_nil_iff, String.toList_singleton]
    exact List.cons_ne_nil c []
  slice_eq := by
    rw [Token.slice_eq_iff, Token.stop_singleton, drop_succ_of_drop_eq hdrop,
      String.toList_singleton]
    exact hdrop
  readsAs := readsAs_symbol hc start

/-- The rest of a text behind the digits and points at its front. -/
theorem drop_run (hdrop : cs.drop start = c :: rest) :
    cs.drop (start + (c :: rest.takeWhile isLiteralChar).length) =
      rest.dropWhile isLiteralChar := by
  have hsplit := List.takeWhile_append_dropWhile (p := isLiteralChar) (l := rest)
  rw [← List.drop_drop, hdrop]
  calc (c :: rest).drop (c :: rest.takeWhile isLiteralChar).length
      = ((c :: rest.takeWhile isLiteralChar) ++ rest.dropWhile isLiteralChar).drop
          (c :: rest.takeWhile isLiteralChar).length := by rw [List.cons_append, hsplit]
    _ = rest.dropWhile isLiteralChar := List.drop_left

/-- What stands behind the digits and points at the front of a text is none of them. -/
theorem isLiteralChar_behind_run (hdrop : cs.drop start = c :: rest) {d : Char}
    (hd : cs[start + (c :: rest.takeWhile isLiteralChar).length]? = some d) :
    isLiteralChar d = false := by
  rw [← List.head?_drop, drop_run hdrop] at hd
  have hhead := List.head?_dropWhile_not isLiteralChar rest
  rw [hd] at hhead
  simpa using hhead

/-- All digits and points from a place on are a number there, if they make a literal and
the number does not begin before. -/
theorem writtenIn_number {value : Decimal} (hdrop : cs.drop start = c :: rest)
    (hc : isLiteralChar c = true) (hcut : Cut cs start)
    (hvalue : literal? (c :: rest.takeWhile isLiteralChar) = some value) :
    (⟨.number value.toFloat, String.ofList (c :: rest.takeWhile isLiteralChar), start⟩ :
      Token).WrittenIn cs := by
  have hliteral := isLiteral_of_literal? hvalue
  rw [literal?_eq_some hliteral, Option.some.injEq] at hvalue
  have hrun : ∀ d ∈ c :: rest.takeWhile isLiteralChar, isLiteralChar d = true :=
    List.forall_mem_cons.2 ⟨hc, List.all_eq_true.1 List.all_takeWhile⟩
  refine ⟨?_, ?_, .number ⟨?_, ?_, ?_, ?_, ?_, ?_⟩⟩
  · rw [ne_eq, ← String.toList_eq_nil_iff, String.toList_ofList]
    exact List.cons_ne_nil _ _
  · rw [Token.slice_eq_iff, Token.stop_ofList, drop_run hdrop, String.toList_ofList,
      List.cons_append, List.takeWhile_append_dropWhile]
    exact hdrop
  · rw [String.toList_ofList, hvalue]
    rfl
  · rwa [String.toList_ofList]
  · rw [String.toList_ofList]
    exact exists_digit_of_isLiteral (List.cons_ne_nil _ _) hrun hliteral
  · rw [String.toList_ofList]
    exact hliteral.1
  · intro i b hi hb
    -- were it part of a number, the number would go on across its place
    by_contra hpart
    rw [Bool.not_eq_false] at hpart
    rw [hcut i b c hi hb (getElem?_of_drop_eq hdrop) hpart] at hc
    cases hc
  · intro d hd
    rw [Token.stop_ofList] at hd
    exact isLiteralChar_behind_run hdrop hd

/-! ### Division step by step -/

/-- No tokens are left at the end of a text. -/
theorem Segments.nil_iff (hdrop : cs.drop start = []) :
    Segments cs start tokens ↔ tokens = [] := by
  have hlength : cs.length ≤ start := List.drop_eq_nil_iff.1 hdrop
  constructor
  · intro h
    apply List.eq_nil_iff_forall_not_mem.2
    intro t ht
    obtain ⟨hle, hwritten⟩ := h.written t ht
    have hhead := hwritten.drop_eq
    rw [List.drop_eq_nil_iff.2 (hlength.trans hle)] at hhead
    apply hwritten.ne_empty
    rw [← String.toList_eq_nil_iff]
    exact (List.append_eq_nil_iff.1 hhead.symm).1
  · rintro rfl
    refine ⟨List.forall_mem_nil _, List.Pairwise.nil, ?_⟩
    intro i c hi hc _
    rw [List.getElem?_eq_none (hlength.trans hi)] at hc
    cases hc

/-- Where something stands that is not white space, a token begins. -/
theorem Segments.exists_head (h : Segments cs start tokens) (hdrop : cs.drop start = c :: rest)
    (hc : isBlank c = false) :
    ∃ t others, tokens = t :: others ∧ t.position = start ∧ t.WrittenIn cs := by
  -- one of the tokens covers the place, and then it begins there
  obtain ⟨t, ht, hposition⟩ : ∃ t ∈ tokens, t.position = start := by
    by_contra hnone
    have hblank := h.blank start c le_rfl (getElem?_of_drop_eq hdrop) fun t ht hin =>
      hnone ⟨t, ht, le_antisymm hin.1 (h.written t ht).1⟩
    rw [hc] at hblank
    cases hblank
  cases tokens with
  | nil => cases ht
  | cons a others =>
    obtain ⟨hle, hwritten⟩ := h.written a List.mem_cons_self
    rcases List.mem_cons.1 ht with rfl | hother
    · exact ⟨t, others, rfl, hposition, hwritten⟩
    · -- it cannot be a later one, which begins behind the first
      have hstop := (List.pairwise_cons.1 h.ordered).1 t hother
      have hlt := hwritten.position_lt_stop
      omega

/-- White space is passed over. -/
theorem Segments.skip_iff (hdrop : cs.drop start = c :: rest) (hliteral : isLiteralChar c = false)
    (hsymbol : symbolKind? c = none) (hblank : isBlank c = true) :
    Segments cs start tokens ↔ Segments cs (start + 1) tokens := by
  constructor
  · intro h
    refine ⟨?_, h.ordered, ?_⟩
    · intro t ht
      obtain ⟨hle, hwritten⟩ := h.written t ht
      refine ⟨Nat.succ_le_of_lt (lt_of_le_of_ne hle ?_), hwritten⟩
      rintro rfl
      -- a token there would be a symbol
      obtain ⟨kind, hkind, -⟩ := hwritten.eq_symbol hdrop hliteral
      rw [hsymbol] at hkind
      cases hkind
    · intro i d hi
      exact h.blank i d (Nat.le_of_succ_le hi)
  · intro h
    refine ⟨?_, h.ordered, ?_⟩
    · intro t ht
      obtain ⟨hle, hwritten⟩ := h.written t ht
      exact ⟨Nat.le_of_succ_le hle, hwritten⟩
    · intro i d hi hd hnone
      rcases hi.eq_or_lt with rfl | hlt
      · rw [getElem?_of_drop_eq hdrop, Option.some.injEq] at hd
        rwa [← hd]
      · exact h.blank i d hlt hd hnone

/-- Behind a token that is written at its place, the division goes on. -/
theorem Segments.cons_iff (ht : t.WrittenIn cs) :
    Segments cs t.position (t :: tokens) ↔ Segments cs t.stop tokens := by
  have hlt := ht.position_lt_stop
  constructor
  · intro h
    obtain ⟨hbehind, hordered⟩ := List.pairwise_cons.1 h.ordered
    refine ⟨?_, hordered, ?_⟩
    · intro a ha
      exact ⟨hbehind a ha, (h.written a (List.mem_cons_of_mem t ha)).2⟩
    · intro i d hi hd hnone
      apply h.blank i d (hlt.le.trans hi) hd
      intro a ha
      rcases List.mem_cons.1 ha with rfl | ha
      · exact fun hin => absurd hin.2 (not_lt.2 hi)
      · exact hnone a ha
  · intro h
    refine ⟨?_, List.pairwise_cons.2 ⟨fun a ha => (h.written a ha).1, h.ordered⟩, ?_⟩
    · intro a ha
      rcases List.mem_cons.1 ha with rfl | ha
      · exact ⟨le_rfl, ht⟩
      · obtain ⟨hle, hwritten⟩ := h.written a ha
        exact ⟨hlt.le.trans hle, hwritten⟩
    · intro i d hi hd hnone
      have hle : t.stop ≤ i := by
        by_contra hin
        exact hnone t List.mem_cons_self ⟨hi, not_le.1 hin⟩
      exact h.blank i d hle hd fun a ha => hnone a (List.mem_cons_of_mem t ha)

/-- Where only one token can be written, scanning and dividing go on together behind it. -/
theorem map_cons_eq_ok_iff_segments {ε : Type} {scanned : Except ε (List Token)}
    (hdrop : cs.drop t.position = c :: rest) (hc : isBlank c = false) (ht : t.WrittenIn cs)
    (honly : ∀ a : Token, a.position = t.position → a.WrittenIn cs → a = t)
    (hscanned : ∀ others, scanned = .ok others ↔ Segments cs t.stop others) :
    scanned.map (t :: ·) = .ok tokens ↔ Segments cs t.position tokens := by
  constructor
  · intro h
    obtain ⟨others, hothers, rfl⟩ := map_cons_eq_ok h
    exact (Segments.cons_iff ht).2 ((hscanned others).1 hothers)
  · intro h
    obtain ⟨a, others, rfl, hposition, hwritten⟩ := h.exists_head hdrop hc
    obtain rfl := honly a hposition hwritten
    rw [(hscanned others).2 ((Segments.cons_iff ht).1 h)]
    rfl

/-! ### Scanning divides the text -/

/-- From a place on that no number crosses, scanning finds the tokens that divide the text,
and fails when none do. -/
theorem scanFrom_eq_ok_iff (hdrop : cs.drop start = rest) (hcut : Cut cs start) :
    ∀ tokens, scanFrom start rest = .ok tokens ↔ Segments cs start tokens := by
  fun_induction scanFrom start rest with
  | case1 start =>
    intro tokens
    rw [Segments.nil_iff hdrop, Except.ok.injEq, eq_comm]
  | case2 start c rest hc run hvalue =>
    intro tokens
    constructor
    · intro hok
      cases hok
    · intro h
      obtain ⟨a, -, -, rfl, hwritten⟩ := h.exists_head hdrop (isBlank_of_isLiteralChar hc)
      obtain ⟨value, hsome, -⟩ := hwritten.eq_number hdrop hc
      cases hvalue.symm.trans hsome
  | case3 start c rest hc run value hvalue ih =>
    intro tokens
    have hwritten := writtenIn_number hdrop hc hcut hvalue
    refine map_cons_eq_ok_iff_segments hdrop (isBlank_of_isLiteralChar hc) hwritten ?_ ?_
    · intro a (hposition : a.position = start) ha
      rw [← hposition] at hdrop
      obtain ⟨value', hsome, heq⟩ := ha.eq_number hdrop hc
      obtain rfl := Option.some.inj (hvalue.symm.trans hsome)
      rw [heq, hposition]
    · rw [Token.stop_ofList]
      refine ih (drop_run hdrop) ?_
      intro i b d _ _ hd _
      exact isLiteralChar_behind_run hdrop hd
  | case4 start c rest hc kind hkind ih =>
    intro tokens
    rw [Bool.not_eq_true] at hc
    have hblank := (isLiteralChar_of_symbolKind? hkind).2
    refine map_cons_eq_ok_iff_segments hdrop hblank (writtenIn_symbol hdrop hkind) ?_ ?_
    · intro a (hposition : a.position = start) ha
      rw [← hposition] at hdrop
      obtain ⟨kind', hsome, heq⟩ := ha.eq_symbol hdrop hc
      obtain rfl := Option.some.inj (hkind.symm.trans hsome)
      rw [heq, hposition]
    · rw [Token.stop_singleton]
      exact ih (drop_succ_of_drop_eq hdrop) (cut_succ hdrop hc)
  | case5 start c rest hc hsymbol hblank ih =>
    intro tokens
    rw [Bool.not_eq_true] at hc
    rw [Segments.skip_iff hdrop hc hsymbol hblank]
    exact ih (drop_succ_of_drop_eq hdrop) (cut_succ hdrop hc) tokens
  | case6 start c rest hc hsymbol hblank =>
    intro tokens
    rw [Bool.not_eq_true] at hc hblank
    constructor
    · intro hok
      cases hok
    · intro h
      obtain ⟨a, -, -, rfl, hwritten⟩ := h.exists_head hdrop hblank
      obtain ⟨kind, hsome, -⟩ := hwritten.eq_symbol hdrop hc
      cases hsymbol.symm.trans hsome

/-- **Scanning divides a text, and there is no other division.**  When scanning succeeds,
its tokens divide the whole text into symbols, numbers and white space, they are the only
ones that do, and a text that can be divided in this way is one that scanning accepts. -/
theorem scan_eq_ok_iff_segments (source : String) (tokens : List Token) :
    scan source = .ok tokens ↔
      Segments source.toList 0 tokens ∧
        ∀ others, Segments source.toList 0 others → others = tokens := by
  have hscan : ∀ tokens, scan source = .ok tokens ↔ Segments source.toList 0 tokens := by
    intro tokens
    rw [scan, mapError_eq_ok]
    exact scanFrom_eq_ok_iff rfl (cut_zero source.toList) tokens
  rw [hscan]
  constructor
  · intro h
    refine ⟨h, ?_⟩
    intro others hothers
    -- both are what scanning finds
    exact Except.ok.inj (((hscan others).2 hothers).symm.trans ((hscan tokens).2 h))
  · exact And.left

end Calculator
