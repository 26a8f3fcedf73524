import Calculator.Proofs.Unplaced
import Mathlib.Logic.Relation

/-!
# Texts put together

Scanning goes from left to right and takes no more of a text than the word it is at, so two
texts that are put together are scanned one after the other: the tokens of the first, then
those of the second in their new places; or the first defect.  There is one exception.  A
number goes on as long as it can, so where a digit or a point stands on either side of the
seam there has to be white space between the two.

White space itself holds no tokens.  So it can be put in, taken out and exchanged for other
white space everywhere but inside a number and between two numbers that would become one.

## Main definitions

* `Touching xs ys` — a number would go on across the seam of two texts.
* `Separates w a b` — white space that keeps two texts apart.
* `inTurn`, `movedBy` — what is found in two texts, and what is found further on.
* `Respaced` — one piece of white space is exchanged for another.

## Main results

* `scanFrom_append`, `scanFrom_add` — texts put together, and texts that begin further on.
* `scan_append` — **texts put together are scanned one after the other**.
-/

namespace Calculator

variable {xs ys zs rest : List Char} {c : Char} {a b w : String}

/-- A digit or a point stands on either side of the seam of two texts. -/
def Touching (xs ys : List Char) : Prop :=
  ∃ c ∈ xs.getLast?, ∃ d ∈ ys.head?, isLiteralChar c = true ∧ isLiteralChar d = true

/-- White space that keeps two texts apart: there may be none of it unless a number would go
on across the seam. -/
structure Separates (w a b : String) : Prop where
  /-- It is white space. -/
  blank : ∀ c ∈ w.toList, isBlank c = true
  /-- There is some of it where it is needed. -/
  ne_empty : Touching a.toList b.toList → w ≠ ""

/-- White space between two texts is exchanged for other white space, and keeps them apart
before and after. -/
inductive Respaced : String → String → Prop
  /-- The texts on either side stay as they are. -/
  | mk {a b w w' : String} (h : Separates w a b) (h' : Separates w' a b) :
      Respaced (a ++ w ++ b) (a ++ w' ++ b)

/-- A token that stands `n` places further on. -/
def Token.movedBy (n : Nat) (t : Token) : Token := { t with position := t.position + n }

/-- A defect that stands `n` places further on. -/
def Defect.movedBy (n : Nat) (d : Defect) : Defect := { d with index := d.index + n }

/-- What is found in a text that begins `n` places further on. -/
def movedBy (n : Nat) (found : Except Defect (List Token)) : Except Defect (List Token) :=
  (found.map (List.map (Token.movedBy n))).mapError (Defect.movedBy n)

/-- What is found in two texts, one after the other: the tokens of both, or the first
defect. -/
def inTurn (found found' : Except Defect (List Token)) : Except Defect (List Token) :=
  found.bind fun tokens => found'.map (tokens ++ ·)

/-- What is found in a text, wherever it stands: the tokens without their places, or what is
wrong. -/
def wordsOf (source : String) : Except DefectKind (List Token) :=
  ((scan source).map (List.map Token.unplaced)).mapError (·.defect.kind)

@[simp] theorem inTurn_error (d : Defect) (found : Except Defect (List Token)) :
    inTurn (.error d) found = .error d := rfl

@[simp] theorem movedBy_ok (n : Nat) (tokens : List Token) :
    movedBy n (.ok tokens) = .ok (tokens.map (Token.movedBy n)) := rfl

/-- Tokens are the same further on, but for their places. -/
theorem map_unplaced_movedBy (n : Nat) (tokens : List Token) :
    (tokens.map (Token.movedBy n)).map Token.unplaced = tokens.map Token.unplaced := by
  rw [List.map_map]
  rfl

/-- A token found first comes first. -/
theorem map_cons_inTurn (t : Token) (found found' : Except Defect (List Token)) :
    (inTurn found found').map (t :: ·) = inTurn (found.map (t :: ·)) found' := by
  cases found with
  | error d => rfl
  | ok tokens => cases found' <;> rfl

/-- A token found first comes first, further on as well. -/
theorem movedBy_map_cons (n : Nat) (t : Token) (found : Except Defect (List Token)) :
    movedBy n (found.map (t :: ·)) = (movedBy n found).map (t.movedBy n :: ·) := by
  cases found <;> rfl

/-- Where nothing is found, the second text is all there is. -/
@[simp] theorem inTurn_nil (found : Except Defect (List Token)) : inTurn (.ok []) found = found := by
  cases found <;> rfl

/-! ### The seam of two texts -/

/-- What stands before the first text does not matter to the seam. -/
theorem Touching.append_left (h : Touching xs ys) (zs : List Char) : Touching (zs ++ xs) ys := by
  obtain ⟨c, hc, d, hd, hboth⟩ := h
  refine ⟨c, ?_, d, hd, hboth⟩
  rw [Option.mem_def] at hc ⊢
  rw [List.getLast?_append, hc, Option.some_or]

theorem touching_cons_cons {d : Char} : Touching (c :: d :: xs) ys ↔ Touching (d :: xs) ys := by
  rw [Touching, Touching, List.getLast?_cons_cons]

/-- White space is no part of a number, so nothing goes on from it. -/
theorem not_touching_of_blank_left (h : ∀ c ∈ xs, isBlank c = true) : ¬ Touching xs ys := by
  rintro ⟨c, hc, d, -, hliteral, -⟩
  have hblank := h c (List.mem_of_getLast? hc)
  rw [isBlank_of_isLiteralChar hliteral] at hblank
  cases hblank

/-- White space between two texts keeps a number from going on. -/
theorem not_touching_append (hblank : ∀ c ∈ ys, isBlank c = true)
    (hempty : Touching xs zs → ys ≠ []) : ¬ Touching xs (ys ++ zs) := by
  cases ys with
  | nil => exact fun h => hempty h rfl
  | cons d ys =>
    rintro ⟨c, -, e, he, -, hliteral⟩
    obtain rfl : d = e := Option.some.inj he
    have hd := hblank d List.mem_cons_self
    rw [isBlank_of_isLiteralChar hliteral] at hd
    cases hd

/-- A run of digits and points ends at the seam at the latest. -/
theorem takeWhile_append_of_not_touching (hc : isLiteralChar c = true)
    (hseam : ¬ Touching (c :: rest) ys) :
    (rest ++ ys).takeWhile isLiteralChar = rest.takeWhile isLiteralChar ∧
      (rest ++ ys).dropWhile isLiteralChar = rest.dropWhile isLiteralChar ++ ys := by
  induction rest generalizing c with
  | nil =>
    have hbehind : ∀ d ∈ ys.head?, isLiteralChar d = false := by
      intro d hd
      rw [← Bool.not_eq_true]
      exact fun hliteral => hseam ⟨c, rfl, d, hd, hc, hliteral⟩
    exact takeWhile_isLiteralChar (fun d hd => nomatch hd) hbehind
  | cons d rest ih =>
    cases hd : isLiteralChar d with
    | false => simp [hd]
    | true =>
      rw [touching_cons_cons] at hseam
      obtain ⟨htake, hdrop⟩ := ih hd hseam
      simp [hd, htake, hdrop]

/-! ### Scanning texts put together -/

/-- Where no number goes on across the seam, the second text is scanned behind the first. -/
theorem scanFrom_append (hseam : ¬ Touching xs ys) (position : Nat) :
    scanFrom position (xs ++ ys) =
      inTurn (scanFrom position xs) (scanFrom (position + xs.length) ys) := by
  fun_induction scanFrom position xs with
  | case1 position => simp
  | case2 position c rest hc run hvalue =>
    obtain ⟨htake, -⟩ := takeWhile_append_of_not_touching hc hseam
    rw [List.cons_append, scanFrom]
    simp only [hc, if_true, htake, hvalue, run, inTurn_error]
  | case3 position c rest hc run value hvalue ih =>
    obtain ⟨htake, hdrop⟩ := takeWhile_append_of_not_touching hc hseam
    have hsplit : run ++ rest.dropWhile isLiteralChar = c :: rest := by
      rw [List.cons_append, List.takeWhile_append_dropWhile]
    have hbehind : ¬ Touching (rest.dropWhile isLiteralChar) ys := by
      intro htouch
      have := htouch.append_left run
      rw [hsplit] at this
      exact hseam this
    have hlength : run.length + (rest.dropWhile isLiteralChar).length = (c :: rest).length := by
      rw [← List.length_append, hsplit]
    rw [← map_cons_inTurn, ← hlength, ← Nat.add_assoc, ← ih hbehind, List.cons_append, scanFrom]
    simp only [hc, if_true, htake, hdrop, hvalue, run]
  | case4 position c rest hc kind hkind ih =>
    have hbehind : ¬ Touching rest ys := fun htouch => hseam (htouch.append_left [c])
    rw [← map_cons_inTurn, List.length_cons, Nat.add_comm rest.length, ← Nat.add_assoc,
      ← ih hbehind, List.cons_append, scanFrom_cons_symbol hkind]
  | case5 position c rest hc hkind hblank ih =>
    have hbehind : ¬ Touching rest ys := fun htouch => hseam (htouch.append_left [c])
    rw [List.length_cons, Nat.add_comm rest.length, ← Nat.add_assoc, ← ih hbehind,
      List.cons_append, scanFrom_cons_of_isBlank hblank]
  | case6 position c rest hc hkind hblank =>
    rw [List.cons_append, scanFrom]
    simp [hc, hkind, hblank]

/-- A text that begins further on holds the same, further on. -/
theorem scanFrom_add (position n : Nat) (cs : List Char) :
    scanFrom (position + n) cs = movedBy n (scanFrom position cs) := by
  fun_induction scanFrom position cs with
  | case1 position => simp
  | case2 position c rest hc run hvalue =>
    rw [scanFrom]
    simp only [hc, if_true, hvalue, run]
    rfl
  | case3 position c rest hc run value hvalue ih =>
    rw [movedBy_map_cons, ← ih, Nat.add_right_comm, scanFrom]
    simp only [hc, if_true, hvalue, run]
    rfl
  | case4 position c rest hc kind hkind ih =>
    rw [movedBy_map_cons, ← ih, Nat.add_right_comm, scanFrom_cons_symbol hkind]
    rfl
  | case5 position c rest hc hkind hblank ih =>
    rw [scanFrom_cons_of_isBlank hblank, Nat.add_right_comm, ih]
  | case6 position c rest hc hkind hblank =>
    rw [scanFrom]
    simp only [hc, hkind, hblank, if_false, Bool.false_eq_true]
    rfl

/-- The second of two texts with white space between them begins behind the first and the
white space. -/
theorem Separates.scanFrom_append (h : Separates w a b) :
    scanFrom 0 (a ++ w ++ b).toList =
      inTurn (scanFrom 0 a.toList) (movedBy (a.length + w.length) (scanFrom 0 b.toList)) := by
  have hempty : Touching a.toList b.toList → w.toList ≠ [] := by
    rw [ne_eq, String.toList_eq_nil_iff]
    exact h.ne_empty
  have hmiddle : scanFrom (0 + a.toList.length) w.toList = .ok [] := scanFrom_blank h.blank _
  rw [String.toList_append, String.toList_append, List.append_assoc,
    Calculator.scanFrom_append (not_touching_append h.blank hempty),
    Calculator.scanFrom_append (not_touching_of_blank_left h.blank), hmiddle, inTurn_nil,
    Nat.add_assoc, scanFrom_add, String.length_toList, String.length_toList]

/-- What is found in two texts does not depend on the white space between them. -/
theorem Separates.wordsOf_eq {w' : String} (h : Separates w a b) (h' : Separates w' a b) :
    wordsOf (a ++ w' ++ b) = wordsOf (a ++ w ++ b) := by
  rw [wordsOf, wordsOf, scan, scan, h.scanFrom_append, h'.scanFrom_append]
  cases scanFrom 0 a.toList with
  | error d => rfl
  | ok tokens =>
    cases scanFrom 0 b.toList with
    | error d => rfl
    | ok others =>
      change Except.ok ((tokens ++ others.map _).map Token.unplaced) =
        Except.ok ((tokens ++ others.map _).map Token.unplaced)
      rw [List.map_append, List.map_append, map_unplaced_movedBy, map_unplaced_movedBy]

/-- However often white space is exchanged, the same is found. -/
theorem wordsOf_respaced {source source' : String}
    (h : Relation.ReflTransGen Respaced source source') : wordsOf source' = wordsOf source := by
  induction h with
  | refl => rfl
  | tail _ hstep ih =>
    obtain ⟨h, h'⟩ := hstep
    exact (h.wordsOf_eq h').trans ih

/-- **Texts put together are scanned one after the other**, with white space between them
that may be empty unless a number would go on across the seam.  If the first is refused then
so is the whole, for the same reason at the same place.  If the first is scanned and the
second refused, the whole is refused for the same reason, behind the first text and the white
space.  If both are scanned, the whole has the tokens of both, those of the second moved
behind the first text and the white space.  And however often white space is put in, taken
out or exchanged, unless it keeps two parts of a number or two numbers apart, the same tokens
are found, or the same is wrong. -/
theorem scan_append (h : Separates w a b) :
    (∀ e, scan a = .error e → scan (a ++ w ++ b) = .error ⟨a ++ w ++ b, e.defect⟩) ∧
    (∀ tokens e, scan a = .ok tokens → scan b = .error e →
      scan (a ++ w ++ b) =
        .error ⟨a ++ w ++ b, e.defect.movedBy (a.length + w.length)⟩) ∧
    (∀ tokens others, scan a = .ok tokens → scan b = .ok others →
      scan (a ++ w ++ b) =
        .ok (tokens ++ others.map (Token.movedBy (a.length + w.length)))) ∧
    ∀ source, Relation.ReflTransGen Respaced (a ++ w ++ b) source →
      wordsOf source = wordsOf (a ++ w ++ b) := by
  have hwhole : scan (a ++ w ++ b) = (inTurn (scanFrom 0 a.toList)
      (movedBy (a.length + w.length) (scanFrom 0 b.toList))).mapError
        (ScanError.mk (a ++ w ++ b)) := by
    rw [scan, h.scanFrom_append]
  refine ⟨?_, ?_, ?_, fun source hsource => wordsOf_respaced hsource⟩
  · intro e ha
    obtain ⟨d, hd, rfl⟩ := mapError_eq_error.1 ha
    rw [hwhole, hd]
    rfl
  · intro tokens e ha hb
    obtain ⟨d, hd, rfl⟩ := mapError_eq_error.1 hb
    rw [scan, mapError_eq_ok] at ha
    rw [hwhole, ha, hd]
    rfl
  · intro tokens others ha hb
    rw [scan, mapError_eq_ok] at ha hb
    rw [hwhole, ha, hb]
    rfl

/-- A point alone is refused behind a number and a space; without the space it would be part
of the number. -/
theorem scan_append_lonePoint :
    Separates " " "1" "." ∧ Touching "1".toList ".".toList ∧
      scan "." = .error ⟨".", ⟨.malformedNumber ['.'], 0⟩⟩ ∧
      scan "1 ." = .error ⟨"1 .", ⟨.malformedNumber ['.'], 2⟩⟩ ∧
      ∀ source, Relation.ReflTransGen Respaced "1 ." source →
        wordsOf source = .error (.malformedNumber ['.']) := by
  have hone : Token.Lexed ⟨.number (literalValue ['1']).toFloat, "1", 0⟩ :=
    @Token.Lexed.number ['1'] _ _ (List.cons_ne_nil _ _) (List.forall_mem_singleton.2 rfl)
      (literal?_eq_some (by decide))
  have hspace : Separates " " "1" "." := ⟨List.forall_mem_singleton.2 (by decide), fun _ => by decide⟩
  have hfirst : scan "1" = .ok [⟨.number (literalValue ['1']).toFloat, "1", 0⟩] :=
    mapError_eq_ok.2 (hone.scanFrom_lexeme 0)
  have hpoint : scan "." = .error ⟨".", ⟨.malformedNumber ['.'], 0⟩⟩ := by
    have hnone : literal? ['.'] = none := by decide
    refine mapError_eq_error.2 ⟨_, ?_, rfl⟩
    change scanFrom 0 ['.'] = _
    rw [scanFrom, if_pos (by decide), List.takeWhile_nil]
    simp only [hnone]
  obtain ⟨-, hsecond, -, hrespaced⟩ := scan_append hspace
  have hwhole : scan "1 ." = .error ⟨"1 .", ⟨.malformedNumber ['.'], 2⟩⟩ :=
    hsecond _ _ hfirst hpoint
  refine ⟨hspace, ⟨'1', rfl, '.', rfl, rfl, rfl⟩, hpoint, hwhole, fun source hsource => ?_⟩
  refine (hrespaced source hsource).trans ?_
  change wordsOf "1 ." = _
  rw [wordsOf, hwhole]
  rfl

end Calculator
