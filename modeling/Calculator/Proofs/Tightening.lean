import Calculator.Proofs.Spacing
import Mathlib.Data.List.Chain
import Mathlib.Data.Nat.Find

/-!
# White space on the inner side of brackets

White space is taken out of the text of tokens in two passes: first what follows an open
bracket, then what precedes a closing one.  The outcome is said here at once, and for all
texts, since lexemes may hold anything: of the joined lexemes every maximal run of white space
goes that stands right behind `(` or right before `)`, and every other character stays.

A pass from left to right decides on each character by what stands before it, up to the last
character that is no white space, and by the next such character behind it.  Neither of the two
is ever taken out, so what one pass does makes no difference to the other.

## Main definitions

* `IsGap cs start stop` — a maximal run of white space.
* `IsInnerGap cs start stop` — such a run on the inner side of a bracket.
* `LeavesOut gone cs text` — a text is another without the characters at some places.

## Main results

* `tightenBefore_tightenFrom` — the passes may change places.
* `leavesOut_tightenFrom` — which characters go, told by what stands before and behind them.
* `inInnerGap_iff_goes` — these are the characters of inner gaps.
* `renderTokens_leavesOut_innerGaps` — **the text of tokens is their joined lexemes without the
  white space on the inner side of brackets**.
-/

namespace Calculator

/-- All the white space that stands together, from `start` up to and without `stop`. -/
structure IsGap (cs : List Char) (start stop : Nat) : Prop where
  /-- There is some. -/
  lt : start < stop
  /-- It is white space. -/
  blank : ∀ i, start ≤ i → i < stop → ∃ c, cs[i]? = some c ∧ isBlank c = true
  /-- It does not go on to the left. -/
  before : ∀ i c, i + 1 = start → cs[i]? = some c → isBlank c = false
  /-- It does not go on to the right. -/
  behind : ∀ c, cs[stop]? = some c → isBlank c = false

/-- White space that stands right behind an open bracket or right before a closing one. -/
structure IsInnerGap (cs : List Char) (start stop : Nat) : Prop where
  /-- It is all the white space that stands together. -/
  gap : IsGap cs start stop
  /-- A bracket faces it. -/
  bracket : (∃ i, i + 1 = start ∧ cs[i]? = some '(') ∨ cs[stop]? = some ')'

/-- The place lies in white space on the inner side of a bracket. -/
def InInnerGap (cs : List Char) (i : Nat) : Prop :=
  ∃ start stop, IsInnerGap cs start stop ∧ start ≤ i ∧ i < stop

/-- The text is what is left of `cs`, in the same order, without the characters at the places
that are gone. -/
def LeavesOut (gone : Nat → Prop) (cs text : List Char) : Prop :=
  ∃ places : List Nat, places.Pairwise (· < ·) ∧ (∀ i, i ∈ places ↔ i < cs.length ∧ ¬ gone i) ∧
    text.map some = places.map (cs[·]?)

variable {bracket : Char} {after : Bool} {cs text : List Char} {c : Char} {start stop i : Nat}
  {gone : Nat → Prop}

/-! ### The passes -/

/-- Taking out white space leaves the first other character in its place. -/
theorem head?_dropWhile_tightenFrom (bracket : Char) (after : Bool) (cs : List Char) :
    ((tightenFrom bracket after cs).dropWhile isBlank).head? = (cs.dropWhile isBlank).head? := by
  induction cs generalizing after with
  | nil => rfl
  | cons c cs ih =>
    rw [tightenFrom_cons]
    cases hc : isBlank c with
    | true =>
      cases after with
      | true => simpa [hc] using ih true
      | false => simpa [hc] using ih (c == bracket)
    | false => simp [hc]

/-- The passes may change places. -/
theorem tightenBefore_tightenFrom {closing : Char} (hopen : isBlank bracket = false)
    (hclose : isBlank closing = false) (after : Bool) (cs : List Char) :
    tightenBefore closing (tightenFrom bracket after cs) =
      tightenFrom bracket after (tightenBefore closing cs) := by
  induction cs generalizing after with
  | nil => rfl
  | cons c cs ih =>
    rw [tightenFrom_cons, tightenBefore_cons hclose c cs]
    cases hc : isBlank c with
    | false =>
      -- the character stays in both passes
      simp [tightenFrom_cons, tightenBefore_cons hclose, hc, ih]
    | true =>
      have hne := beq_eq_false_of_isBlank hopen hc
      have hhead := head?_dropWhile_tightenFrom bracket false cs
      cases after with
      | true =>
        cases hnext : (cs.dropWhile isBlank).head? == some closing with
        | true => simp [ih]
        | false => simp [tightenFrom_cons, hc, ih]
      | false =>
        cases hnext : (cs.dropWhile isBlank).head? == some closing with
        | true => simp [tightenBefore_cons hclose, hc, hne, hhead, hnext, ih]
        | false => simp [tightenFrom_cons, tightenBefore_cons hclose, hc, hne, hhead, hnext, ih]

theorem tightenFrom_tightenFrom (bracket : Char) (after : Bool) (cs : List Char) :
    tightenFrom bracket after (tightenFrom bracket after cs) = tightenFrom bracket after cs := by
  induction cs generalizing after with
  | nil => rfl
  | cons c cs ih =>
    rw [tightenFrom_cons]
    cases hskip : after && isBlank c with
    | true =>
      obtain ⟨rfl, -⟩ := Bool.and_eq_true_iff.1 hskip
      exact ih true
    | false => simp [tightenFrom_cons, hskip, ih]

theorem tightenBefore_tightenBefore (bracket : Char) (cs : List Char) :
    tightenBefore bracket (tightenBefore bracket cs) = tightenBefore bracket cs := by
  rw [tightenBefore, tightenBefore, List.reverse_reverse, tightenAfter, tightenAfter,
    tightenFrom_tightenFrom]

/-- Behind a bracket no white space is left. -/
theorem isBlank_head?_tightenFrom (bracket : Char) (cs : List Char) :
    ∀ c ∈ (tightenFrom bracket true cs).head?, isBlank c = false := by
  induction cs with
  | nil => nofun
  | cons c cs ih =>
    rw [tightenFrom_cons]
    cases hc : isBlank c with
    | true => exact ih
    | false =>
      rintro d ⟨⟩
      exact hc

theorem isChain_tightenFrom (bracket : Char) (after : Bool) (cs : List Char) :
    (tightenFrom bracket after cs).IsChain fun a b => a = bracket → isBlank b = false := by
  induction cs generalizing after with
  | nil => exact .nil
  | cons c cs ih =>
    rw [tightenFrom_cons]
    cases hskip : after && isBlank c with
    | true => exact ih true
    | false =>
      refine List.isChain_cons.2 ⟨?_, ih _⟩
      rintro b hb rfl
      rw [beq_self_eq_true] at hb
      exact isBlank_head?_tightenFrom c cs b hb

theorem isChain_tightenBefore (bracket : Char) (cs : List Char) :
    (tightenBefore bracket cs).IsChain fun a b => b = bracket → isBlank a = false := by
  rw [tightenBefore, List.isChain_reverse]
  exact isChain_tightenFrom bracket false cs.reverse

/-- Neighbours in a chain are related. -/
theorem rel_of_isChain {R : Char → Char → Prop} {a b : Char} (h : cs.IsChain R)
    (ha : cs[i]? = some a) (hb : cs[i + 1]? = some b) : R a b := by
  obtain ⟨hi, rfl⟩ := List.getElem?_eq_some_iff.1 ha
  obtain ⟨hj, rfl⟩ := List.getElem?_eq_some_iff.1 hb
  exact List.isChain_iff_getElem.1 h i hj

/-! ### Which characters go -/

/-- Whether the character at a place goes: it is white space, and the last other character
before it opens a bracket, or the next one closes one. -/
def Goes (after : Bool) (cs : List Char) (i : Nat) : Prop :=
  (∃ c, cs[i]? = some c ∧ isBlank c = true) ∧
    (standsBehind '(' after (cs.take i) = true ∨
      ((cs.drop i).dropWhile isBlank).head? = some ')')

theorem leavesOut_nil (gone : Nat → Prop) : LeavesOut gone [] [] :=
  ⟨[], List.Pairwise.nil, by simp, rfl⟩

/-- A character that stays. -/
theorem LeavesOut.cons_stay (h : LeavesOut (fun i => gone (i + 1)) cs text) (hstay : ¬ gone 0)
    (c : Char) : LeavesOut gone (c :: cs) (c :: text) := by
  obtain ⟨places, hsorted, hmem, htext⟩ := h
  refine ⟨0 :: places.map (· + 1), ?_, ?_, ?_⟩
  · refine List.pairwise_cons.2 ⟨by simp, ?_⟩
    exact List.pairwise_map.2 (hsorted.imp Nat.succ_lt_succ)
  · intro i
    cases i with
    | zero => simp [hstay]
    | succ i => simp [hmem]
  · simpa [Function.comp_def] using htext

/-- A character that goes. -/
theorem LeavesOut.cons_go (h : LeavesOut (fun i => gone (i + 1)) cs text) (hgo : gone 0)
    (c : Char) : LeavesOut gone (c :: cs) text := by
  obtain ⟨places, hsorted, hmem, htext⟩ := h
  refine ⟨places.map (· + 1), ?_, ?_, ?_⟩
  · exact List.pairwise_map.2 (hsorted.imp Nat.succ_lt_succ)
  · intro i
    cases i with
    | zero => simp [hgo]
    | succ i => simp [hmem]
  · simpa [Function.comp_def] using htext

theorem goes_zero_iff (after : Bool) (c : Char) (cs : List Char) :
    Goes after (c :: cs) 0 ↔
      isBlank c = true ∧ (after = true ∨ (cs.dropWhile isBlank).head? = some ')') := by
  cases hc : isBlank c with
  | true => simp [Goes, standsBehind, hc]
  | false => simp [Goes, hc]

/-- Both passes together, from a place on that stands behind a bracket or does not. -/
theorem leavesOut_tightenFrom (after : Bool) (cs : List Char) :
    LeavesOut (Goes after cs) cs (tightenBefore ')' (tightenFrom '(' after cs)) := by
  have hclose : isBlank ')' = false := by decide
  induction cs generalizing after with
  | nil => exact leavesOut_nil _
  | cons c cs ih =>
    have hrest : LeavesOut (fun i => Goes after (c :: cs) (i + 1)) cs _ :=
      ih ((after && isBlank c) || c == '(')
    have hzero := goes_zero_iff after c cs
    rw [tightenFrom_cons]
    cases hc : isBlank c with
    | false =>
      rw [hc] at hrest
      have hstay : ¬ Goes after (c :: cs) 0 := by simp [hzero, hc]
      simpa [tightenBefore_cons hclose, hc] using hrest.cons_stay hstay c
    | true =>
      have hne : (c == '(') = false := beq_eq_false_of_isBlank (by decide) hc
      rw [hc, hne] at hrest
      cases after with
      | true =>
        have hgo : Goes true (c :: cs) 0 := by simp [hzero, hc]
        simpa using hrest.cons_go hgo c
      | false =>
        -- the first pass leaves the character, and the second one looks for a bracket behind it
        have hhead := head?_dropWhile_tightenFrom '(' false cs
        by_cases hnext : (cs.dropWhile isBlank).head? = some ')'
        · have hgo : Goes false (c :: cs) 0 := by simp [hzero, hc, hnext]
          simpa [tightenBefore_cons hclose, hc, hne, hhead, hnext] using hrest.cons_go hgo c
        · have hstay : ¬ Goes false (c :: cs) 0 := by simp [hzero, hc, hnext]
          simpa [tightenBefore_cons hclose, hc, hne, hhead, hnext] using hrest.cons_stay hstay c

/-! ### Gaps -/

/-- White space at a place belongs to white space that stands together. -/
theorem exists_isGap (hc : cs[i]? = some c) (hblank : isBlank c = true) :
    ∃ start stop, IsGap cs start stop ∧ start ≤ i ∧ i < stop := by
  classical
  -- the leftmost place from which all is white space up to here, and the next other character
  have hleft : ∃ start, start ≤ i ∧
      ∀ j, start ≤ j → j ≤ i → ∃ d, cs[j]? = some d ∧ isBlank d = true := by
    refine ⟨i, le_rfl, ?_⟩
    intro j hle hge
    obtain rfl := le_antisymm hge hle
    exact ⟨c, hc, hblank⟩
  have hright : ∃ stop, i < stop ∧ ¬ ∃ d, cs[stop]? = some d ∧ isBlank d = true := by
    obtain ⟨hlt, -⟩ := List.getElem?_eq_some_iff.1 hc
    exact ⟨cs.length, hlt, by simp⟩
  obtain ⟨hstart, hfront⟩ := Nat.find_spec hleft
  obtain ⟨hstop, hend⟩ := Nat.find_spec hright
  refine ⟨Nat.find hleft, Nat.find hright, ⟨hstart.trans_lt hstop, ?_, ?_, ?_⟩, hstart, hstop⟩
  · intro j hle hlt
    rcases Nat.lt_or_ge i j with hj | hj
    · by_contra hother
      exact Nat.find_min hright hlt ⟨hj, hother⟩
    · exact hfront j hle hj
  · intro j d hj hd
    by_contra hpart
    rw [Bool.not_eq_false] at hpart
    refine Nat.find_min hleft (m := j) (by omega) ⟨by omega, ?_⟩
    intro k hle hk
    rcases hle.eq_or_lt with rfl | hlt
    · exact ⟨d, hd, hpart⟩
    · exact hfront k (by omega) hk
  · intro d hd
    by_contra hpart
    rw [Bool.not_eq_false] at hpart
    exact hend ⟨d, hd, hpart⟩

theorem IsGap.blank_of_mem (h : IsGap cs start stop) (hstart : start ≤ i) {j : Nat}
    (hstop : j ≤ stop) : ∀ c ∈ (cs.drop i).take (j - i), isBlank c = true := by
  intro c hc
  obtain ⟨k, hk, rfl⟩ := List.mem_iff_getElem.1 hc
  rw [List.length_take, List.length_drop] at hk
  obtain ⟨d, hd, hblank⟩ := h.blank (i + k) (by omega) (by omega)
  obtain ⟨hlt, rfl⟩ := List.getElem?_eq_some_iff.1 hd
  rwa [List.getElem_take, List.getElem_drop]

/-- Behind a gap, from any place in it, the text goes on with what stands at its end. -/
theorem IsGap.dropWhile_eq (h : IsGap cs start stop) (hstart : start ≤ i) (hstop : i < stop) :
    (cs.drop i).dropWhile isBlank = cs.drop stop := by
  have hsplit : cs.drop i = (cs.drop i).take (stop - i) ++ cs.drop stop := by
    have hrest : cs.drop stop = (cs.drop i).drop (stop - i) := by
      rw [List.drop_drop, Nat.add_sub_cancel' hstop.le]
    rw [hrest, List.take_append_drop]
  rw [hsplit, List.dropWhile_append_of_pos (h.blank_of_mem hstart le_rfl)]
  cases hdrop : cs.drop stop with
  | nil => rfl
  | cons d rest =>
    have hd : cs[stop]? = some d := by rw [← List.head?_drop, hdrop, List.head?_cons]
    rw [List.dropWhile_cons_of_neg (by simp [h.behind d hd])]

/-- White space makes no difference to what stands before a place. -/
theorem standsBehind_blank (hb : isBlank bracket = false) (after : Bool)
    (hblank : ∀ c ∈ cs, isBlank c = true) : standsBehind bracket after cs = after := by
  induction cs with
  | nil => rfl
  | cons c cs ih =>
    obtain ⟨hc, hcs⟩ := List.forall_mem_cons.1 hblank
    rw [standsBehind, hc, beq_eq_false_of_isBlank hb hc, Bool.and_true, Bool.or_false]
    exact ih hcs

/-- In a gap, what stands before a place is what stands before the gap. -/
theorem IsGap.standsBehind_iff (h : IsGap cs start stop) (hstart : start ≤ i) (hstop : i < stop) :
    standsBehind '(' false (cs.take i) = true ↔ ∃ k, k + 1 = start ∧ cs[k]? = some '(' := by
  have hsplit : cs.take i = cs.take start ++ (cs.drop start).take (i - start) := by
    rw [← List.take_add, Nat.add_sub_cancel' hstart]
  rw [hsplit, standsBehind_append,
    standsBehind_blank (by decide) _ (h.blank_of_mem le_rfl hstop.le)]
  cases start with
  | zero => simp [standsBehind]
  | succ k =>
    obtain ⟨d, hd⟩ : ∃ d, cs[k]? = some d := by
      obtain ⟨d, hd, -⟩ := h.blank (k + 1) le_rfl h.lt
      obtain ⟨hlt, -⟩ := List.getElem?_eq_some_iff.1 hd
      exact ⟨cs[k], List.getElem?_eq_getElem (by omega)⟩
    -- the character before the gap is no white space, so it decides
    have hlast : standsBehind '(' false (cs.take (k + 1)) = (d == '(') := by
      rw [List.take_add_one, hd, Option.toList_some, standsBehind_append, standsBehind,
        standsBehind, h.before k d rfl hd, Bool.and_false, Bool.false_or]
    simp [hlast, hd]

/-- The characters that go are those in gaps on the inner side of brackets. -/
theorem inInnerGap_iff_goes (cs : List Char) (i : Nat) : InInnerGap cs i ↔ Goes false cs i := by
  constructor
  · rintro ⟨start, stop, ⟨hgap, hbracket⟩, hstart, hstop⟩
    refine ⟨hgap.blank i hstart hstop, ?_⟩
    rw [hgap.standsBehind_iff hstart hstop, hgap.dropWhile_eq hstart hstop, List.head?_drop]
    exact hbracket
  · rintro ⟨⟨c, hc, hblank⟩, hbracket⟩
    obtain ⟨start, stop, hgap, hstart, hstop⟩ := exists_isGap hc hblank
    rw [hgap.standsBehind_iff hstart hstop, hgap.dropWhile_eq hstart hstop,
      List.head?_drop] at hbracket
    exact ⟨start, stop, ⟨hgap, hbracket⟩, hstart, hstop⟩

/-- **The text of tokens is their joined lexemes without the white space on the inner side of
brackets.**  Of the lexemes with a space between any two, the maximal runs of white space go
that stand right behind `(` or right before `)`, and all else stays in its order.  So the text
has no white space there; and the two passes that take it out may change places, and change
nothing when they are made again. -/
theorem renderTokens_leavesOut_innerGaps (tokens : List Token) :
    LeavesOut (InInnerGap (joined tokens)) (joined tokens) (renderTokens tokens).toList ∧
    (∀ i c, (renderTokens tokens).toList[i]? = some '(' →
      (renderTokens tokens).toList[i + 1]? = some c → isBlank c = false) ∧
    (∀ i c, (renderTokens tokens).toList[i]? = some c →
      (renderTokens tokens).toList[i + 1]? = some ')' → isBlank c = false) ∧
    (renderTokens tokens).toList = tightenBefore ')' (tightenAfter '(' (joined tokens)) ∧
    (renderTokens tokens).toList = tightenAfter '(' (tightenBefore ')' (joined tokens)) ∧
    tightenAfter '(' (renderTokens tokens).toList = (renderTokens tokens).toList ∧
    tightenBefore ')' (renderTokens tokens).toList = (renderTokens tokens).toList := by
  have htext : (renderTokens tokens).toList =
      tightenBefore ')' (tightenAfter '(' (joined tokens)) := by
    rw [renderTokens, String.toList_ofList, tighten]
  have hswap : (renderTokens tokens).toList =
      tightenAfter '(' (tightenBefore ')' (joined tokens)) :=
    htext.trans (tightenBefore_tightenFrom (by decide) (by decide) false (joined tokens))
  have hinner : InInnerGap (joined tokens) = Goes false (joined tokens) :=
    funext fun i => propext (inInnerGap_iff_goes (joined tokens) i)
  refine ⟨?_, ?_, ?_, htext, hswap, ?_, ?_⟩
  · rw [hinner, htext]
    exact leavesOut_tightenFrom false (joined tokens)
  · rw [hswap]
    intro i c hi hc
    exact rel_of_isChain (isChain_tightenFrom '(' false _) hi hc rfl
  · rw [htext]
    intro i c hi hc
    exact rel_of_isChain (isChain_tightenBefore ')' _) hi hc rfl
  · rw [hswap]
    exact tightenFrom_tightenFrom '(' false _
  · rw [htext]
    exact tightenBefore_tightenBefore ')' _

end Calculator
