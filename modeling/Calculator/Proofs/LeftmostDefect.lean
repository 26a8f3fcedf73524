import Calculator.Proofs.Segmentation

/-!
# The leftmost defect

Two things can be wrong with a text: a character that no expression holds, and a run of
digits and points that is no number.  Which of them a text has, and where, is said here
of the text alone.  Scanning meets the one kind at the character and the other only when
it has come to the end of the run, and still names the defect that begins leftmost.

The proof goes along the text.  A place where scanning stands is never inside a run, so no
defect begins between it and the next one.

## Main definitions

* `IsRunAt cs start run` — all digits and points that stand together at a place.
* `DefectAt cs index message` — something is wrong with a text at a place.
* `LeftmostDefect cs start index message` — the leftmost of the defects from a place on.

## Main results

* `DefectAt.message_unique` — there is one defect at a place at most.
* `scanFrom_reports` — what scanning finds from each place on.
* `scan_eq_error_iff_leftmostDefect` — **scanning fails exactly on texts with a defect, and
  names the leftmost one**.
-/

namespace Calculator

/-- The characters that are tokens of their own. -/
def symbolChars : List Char := ['+', '-', '*', '/', '(', ')']

/-- A run is all the digits and points that stand together at a place. -/
structure IsRunAt (cs : List Char) (start : Nat) (run : List Char) : Prop where
  /-- There is something in it. -/
  ne_nil : run ≠ []
  /-- It stands at the place. -/
  stands : slice start (start + run.length : Nat) cs = run
  /-- It is made of digits and points. -/
  chars : ∀ c ∈ run, isLiteralChar c = true
  /-- It does not go on to the left. -/
  before : ∀ i c, i + 1 = start → cs[i]? = some c → isLiteralChar c = false
  /-- It does not go on to the right. -/
  behind : ∀ c, cs[start + run.length]? = some c → isLiteralChar c = false

/-- A run of digits and points that is no number: it has no digit, or a second point. -/
def IsMalformed (run : List Char) : Prop :=
  (∀ c ∈ run, c.isDigit = false) ∨ 1 < run.count decimalPoint

/-- Something is wrong with a text at a place, in the words of the message about it. -/
inductive DefectAt (cs : List Char) (index : Nat) : String → Prop
  /-- A character that is no white space, no part of a number and no token. -/
  | character {c : Char} (hc : cs[index]? = some c) (hblank : isBlank c = false)
      (hliteral : isLiteralChar c = false) (hsymbol : c ∉ symbolChars) :
      DefectAt cs index ("Invalid character in expression: " ++ quoted (String.singleton c))
  /-- A run of digits and points that is no number. -/
  | number {run : List Char} (hrun : IsRunAt cs index run) (hbad : IsMalformed run) :
      DefectAt cs index ("Malformed number literal: " ++ quoted (String.ofList run))

/-- The leftmost of the defects that begin at the place `start` or behind it. -/
structure LeftmostDefect (cs : List Char) (start index : Nat) (message : String) : Prop where
  /-- It does not begin before the place. -/
  start_le : start ≤ index
  /-- It is a defect. -/
  defect : DefectAt cs index message
  /-- No other one begins before it. -/
  le : ∀ i other, start ≤ i → DefectAt cs i other → index ≤ i

variable {cs rest run : List Char} {c : Char} {start stop index : Nat} {message : String}

/-! ### Symbols -/

theorem symbolKind?_eq_none_iff (c : Char) : symbolKind? c = none ↔ c ∉ symbolChars := by
  constructor
  · intro h hc
    simp only [symbolChars, List.mem_cons, List.not_mem_nil, or_false] at hc
    rcases hc with rfl | rfl | rfl | rfl | rfl | rfl <;> cases h
  · intro h
    rw [Option.eq_none_iff_forall_ne_some]
    intro kind hkind
    apply h
    rcases symbolKind?_cases hkind with ⟨rfl | rfl | rfl | rfl, -⟩ | ⟨rfl, -⟩ | ⟨rfl, -⟩ <;> decide

/-! ### Runs -/

theorem IsRunAt.drop_eq (h : IsRunAt cs start run) :
    cs.drop start = run ++ cs.drop (start + run.length) := by
  have hstands := h.stands
  rw [slice_natCast] at hstands
  rw [← List.drop_drop]
  calc cs.drop start
      = (cs.drop start).take run.length ++ (cs.drop start).drop run.length :=
        (List.take_append_drop ..).symm
    _ = run ++ (cs.drop start).drop run.length := by rw [hstands]

/-- The run at a place is told from the text. -/
theorem IsRunAt.eq_takeWhile (h : IsRunAt cs start run) :
    run = (cs.drop start).takeWhile isLiteralChar := by
  have hbehind : ∀ d ∈ (cs.drop (start + run.length)).head?, isLiteralChar d = false := by
    intro d hd
    rw [List.head?_drop] at hd
    exact h.behind d hd
  rw [h.drop_eq, (takeWhile_isLiteralChar h.chars hbehind).1]

/-- A run begins with a digit or a point. -/
theorem IsRunAt.exists_getElem? (h : IsRunAt cs start run) :
    ∃ c, cs[start]? = some c ∧ isLiteralChar c = true := by
  obtain ⟨c, others, rfl⟩ := List.exists_cons_of_ne_nil h.ne_nil
  exact ⟨c, getElem?_of_drop_eq h.drop_eq, h.chars c List.mem_cons_self⟩

/-- All digits and points from a place on are a run, if it does not begin before. -/
theorem isRunAt_takeWhile (hdrop : cs.drop start = c :: rest) (hc : isLiteralChar c = true)
    (hcut : Cut cs start) : IsRunAt cs start (c :: rest.takeWhile isLiteralChar) where
  ne_nil := List.cons_ne_nil _ _
  stands := by
    have hsplit : c :: rest =
        (c :: rest.takeWhile isLiteralChar) ++ rest.dropWhile isLiteralChar := by
      rw [List.cons_append, List.takeWhile_append_dropWhile]
    rw [slice_natCast, hdrop, hsplit, List.take_left]
  chars := List.forall_mem_cons.2 ⟨hc, List.all_eq_true.1 List.all_takeWhile⟩
  before := by
    intro i b hi hb
    by_contra hpart
    rw [Bool.not_eq_false] at hpart
    rw [hcut i b c hi hb (getElem?_of_drop_eq hdrop) hpart] at hc
    cases hc
  behind := fun d hd => isLiteralChar_behind_run hdrop hd

/-- All places in a run hold digits and points. -/
theorem exists_getElem?_of_run (h : IsRunAt cs start run) {i : Nat} (hle : start ≤ i)
    (hlt : i < start + run.length) : ∃ c, cs[i]? = some c ∧ isLiteralChar c = true := by
  obtain ⟨k, rfl⟩ := Nat.exists_eq_add_of_le hle
  have hk : k < run.length := by omega
  refine ⟨run[k], ?_, h.chars _ (List.getElem_mem hk)⟩
  rw [← List.getElem?_drop, h.drop_eq, List.getElem?_append_left hk, List.getElem?_eq_getElem hk]

/-! ### Defects -/

/-- A defect is made of something. -/
theorem DefectAt.exists_getElem? (h : DefectAt cs index message) : ∃ c, cs[index]? = some c := by
  cases h with
  | character hc => exact ⟨_, hc⟩
  | number hrun =>
    obtain ⟨c, hc, -⟩ := hrun.exists_getElem?
    exact ⟨c, hc⟩

/-- There is one defect at a place at most. -/
theorem DefectAt.message_unique {other : String} (h : DefectAt cs index message)
    (h' : DefectAt cs index other) : message = other := by
  cases h with
  | @character c hc _ hliteral _ =>
    cases h' with
    | character hc' =>
      rw [hc, Option.some.injEq] at hc'
      rw [hc']
    | number hrun =>
      obtain ⟨d, hd, hpart⟩ := hrun.exists_getElem?
      rw [hc, Option.some.injEq] at hd
      rw [← hd, hliteral] at hpart
      cases hpart
  | number hrun =>
    cases h' with
    | @character c hc _ hliteral _ =>
      obtain ⟨d, hd, hpart⟩ := hrun.exists_getElem?
      rw [hc, Option.some.injEq] at hd
      rw [← hd, hliteral] at hpart
      cases hpart
    | number hrun' => rw [hrun.eq_takeWhile, hrun'.eq_takeWhile]

theorem LeftmostDefect.unique {i : Nat} {other : String}
    (h : LeftmostDefect cs start index message) (h' : LeftmostDefect cs start i other) :
    index = i ∧ message = other := by
  obtain rfl : index = i :=
    le_antisymm (h.le i other h'.start_le h'.defect) (h'.le index message h.start_le h.defect)
  exact ⟨rfl, h.defect.message_unique h'.defect⟩

/-- White space and symbols are no defects. -/
theorem not_defectAt_of_other (hc : cs[index]? = some c) (hliteral : isLiteralChar c = false)
    (hgood : isBlank c = true ∨ c ∈ symbolChars) : ¬ DefectAt cs index message := by
  rintro (⟨hd, hblank, -, hsymbol⟩ | ⟨hrun, -⟩)
  · rw [hc, Option.some.injEq] at hd
    subst hd
    rcases hgood with hgood | hgood
    · rw [hblank] at hgood
      cases hgood
    · exact hsymbol hgood
  · obtain ⟨d, hd, hpart⟩ := hrun.exists_getElem?
    rw [hc, Option.some.injEq] at hd
    rw [← hd, hliteral] at hpart
    cases hpart

/-- No defect begins in a run that is a number. -/
theorem not_defectAt_of_run (hrun : IsRunAt cs start run) (hgood : ¬ IsMalformed run) {i : Nat}
    (hle : start ≤ i) (hlt : i < start + run.length) : ¬ DefectAt cs i message := by
  obtain ⟨c, hc, hpart⟩ := exists_getElem?_of_run hrun hle hlt
  rintro (⟨hd, -, hliteral, -⟩ | ⟨hrun', hbad⟩)
  · rw [hc, Option.some.injEq] at hd
    rw [hd, hliteral] at hpart
    cases hpart
  · rcases hle.eq_or_lt with rfl | hinside
    · rw [hrun'.eq_takeWhile, ← hrun.eq_takeWhile] at hbad
      exact hgood hbad
    · -- a run that began there would go on to the left
      obtain ⟨j, rfl⟩ := Nat.exists_eq_add_of_lt hinside
      obtain ⟨d, hd, hleft⟩ := exists_getElem?_of_run hrun (Nat.le_add_right start j) (by omega)
      rw [hrun'.before _ d rfl hd] at hleft
      cases hleft

/-- A run of digits and points is malformed when it is no literal. -/
theorem isMalformed_iff (hne : run ≠ []) (hrun : ∀ c ∈ run, isLiteralChar c = true) :
    IsMalformed run ↔ ¬ IsLiteral run := by
  constructor
  · rintro (hnone | hpoints) hliteral
    · obtain ⟨c, hc, hdigit⟩ := exists_digit_of_isLiteral hne hrun hliteral
      rw [hnone c hc] at hdigit
      cases hdigit
    · exact absurd hliteral.1 (not_le.2 hpoints)
  · intro hliteral
    by_contra hgood
    rw [IsMalformed, not_or, not_lt] at hgood
    obtain ⟨hdigit, hpoint⟩ := hgood
    have hsome : ∃ c ∈ run, c.isDigit = true := by
      by_contra hnone
      exact hdigit fun c hc => Bool.eq_false_iff.2 fun hc' => hnone ⟨c, hc, hc'⟩
    exact hliteral (isLiteral_of_digit hsome hpoint)

/-! ### Scanning -/

/-- What scanning from a place on says about defects: there is none, or it is the leftmost. -/
def ReportsLeftmost (cs : List Char) (start : Nat) : Except Defect (List Token) → Prop
  | .ok _ => ∀ index message, start ≤ index → ¬ DefectAt cs index message
  | .error d => LeftmostDefect cs start d.index d.kind.message

/-- Where no defect begins, a report from further on holds as well. -/
theorem ReportsLeftmost.extend {scanned : Except Defect (List Token)} (hle : start ≤ stop)
    (hnone : ∀ i other, start ≤ i → i < stop → ¬ DefectAt cs i other)
    (h : ReportsLeftmost cs stop scanned) : ReportsLeftmost cs start scanned := by
  cases scanned with
  | ok tokens =>
    intro i other hi hdefect
    rcases Nat.lt_or_ge i stop with hlt | hge
    · exact hnone i other hi hlt hdefect
    · exact h i other hge hdefect
  | error d =>
    have hleft : LeftmostDefect cs stop d.index d.kind.message := h
    refine ⟨hle.trans hleft.start_le, hleft.defect, ?_⟩
    intro i other hi hdefect
    rcases Nat.lt_or_ge i stop with hlt | hge
    · exact absurd hdefect (hnone i other hi hlt)
    · exact hleft.le i other hge hdefect

theorem ReportsLeftmost.map {scanned : Except Defect (List Token)} (t : Token)
    (h : ReportsLeftmost cs start scanned) : ReportsLeftmost cs start (scanned.map (t :: ·)) := by
  cases scanned with
  | ok tokens => exact h
  | error d => exact h

/-- Past a character that is a symbol or white space. -/
theorem ReportsLeftmost.succ {scanned : Except Defect (List Token)}
    (hdrop : cs.drop start = c :: rest) (hliteral : isLiteralChar c = false)
    (hgood : isBlank c = true ∨ c ∈ symbolChars)
    (h : ReportsLeftmost cs (start + 1) scanned) : ReportsLeftmost cs start scanned := by
  refine h.extend (Nat.le_succ start) ?_
  intro i other hle hlt
  obtain rfl : i = start := by omega
  exact not_defectAt_of_other (getElem?_of_drop_eq hdrop) hliteral hgood

/-- From a place on that no number crosses, scanning finds the leftmost defect. -/
theorem scanFrom_reports (hdrop : cs.drop start = rest) (hcut : Cut cs start) :
    ReportsLeftmost cs start (scanFrom start rest) := by
  fun_induction scanFrom start rest with
  | case1 start =>
    intro i other hi hdefect
    obtain ⟨c, hc⟩ := hdefect.exists_getElem?
    rw [List.getElem?_eq_none ((List.drop_eq_nil_iff.1 hdrop).trans hi)] at hc
    cases hc
  | case2 start c rest hc run hvalue =>
    have hrun : IsRunAt cs start run := isRunAt_takeWhile hdrop hc hcut
    have hbad : IsMalformed run := by
      rw [isMalformed_iff hrun.ne_nil hrun.chars]
      intro hliteral
      rw [literal?_eq_some hliteral] at hvalue
      cases hvalue
    exact ⟨le_rfl, .number hrun hbad, fun i _ hi _ => hi⟩
  | case3 start c rest hc run value hvalue ih =>
    have hrun : IsRunAt cs start run := isRunAt_takeWhile hdrop hc hcut
    have hgood : ¬ IsMalformed run := by
      rw [isMalformed_iff hrun.ne_nil hrun.chars, not_not]
      exact isLiteral_of_literal? hvalue
    have hbehind : Cut cs (start + run.length) := by
      intro i b d _ _ hd _
      exact isLiteralChar_behind_run hdrop hd
    refine ReportsLeftmost.map _ ((ih (drop_run hdrop) hbehind).extend (Nat.le_add_right ..) ?_)
    intro i other hle hlt
    exact not_defectAt_of_run hrun hgood hle hlt
  | case4 start c rest hc kind hkind ih =>
    rw [Bool.not_eq_true] at hc
    have hsymbol : c ∈ symbolChars := by
      by_contra hnone
      rw [(symbolKind?_eq_none_iff c).2 hnone] at hkind
      cases hkind
    have hnext := ih (drop_succ_of_drop_eq hdrop) (cut_succ hdrop hc)
    exact (hnext.succ hdrop hc (Or.inr hsymbol)).map _
  | case5 start c rest hc hsymbol hblank ih =>
    rw [Bool.not_eq_true] at hc
    have hnext := ih (drop_succ_of_drop_eq hdrop) (cut_succ hdrop hc)
    exact hnext.succ hdrop hc (Or.inl hblank)
  | case6 start c rest hc hsymbol hblank =>
    rw [Bool.not_eq_true] at hc hblank
    have hdefect : DefectAt cs start (DefectKind.invalidCharacter c).message :=
      .character (getElem?_of_drop_eq hdrop) hblank hc ((symbolKind?_eq_none_iff c).1 hsymbol)
    exact ⟨le_rfl, hdefect, fun i _ hi _ => hi⟩

/-- **Scanning fails exactly on texts with a defect, and names the leftmost one.**  A text
is refused when it holds a character that no expression holds, or a run of digits and points
that is no number; the error belongs to the text, stands at the first character of the
defect that begins leftmost, and has the message about that defect. -/
theorem scan_eq_error_iff_leftmostDefect (source : String) :
    ((∃ e, scan source = .error e) ↔ ∃ index message, DefectAt source.toList index message) ∧
    ∀ index message,
      (∃ e, scan source = .error e ∧ e.source = source ∧ e.defect.index = index ∧
        e.message = message) ↔ LeftmostDefect source.toList 0 index message := by
  have hreports : ReportsLeftmost source.toList 0 (scanFrom 0 source.toList) :=
    scanFrom_reports rfl (cut_zero source.toList)
  rw [scan]
  cases hscan : scanFrom 0 source.toList with
  | ok tokens =>
    rw [hscan] at hreports
    have hnone : ∀ index message, ¬ DefectAt source.toList index message :=
      fun index message => hreports index message (Nat.zero_le index)
    refine ⟨iff_of_false ?_ ?_, fun index message => iff_of_false ?_ ?_⟩
    · rintro ⟨e, he⟩
      cases he
    · rintro ⟨index, message, hdefect⟩
      exact hnone index message hdefect
    · rintro ⟨e, he, -⟩
      cases he
    · intro hleft
      exact hnone index message hleft.defect
  | error d =>
    rw [hscan] at hreports
    have hleft : LeftmostDefect source.toList 0 d.index d.kind.message := hreports
    refine ⟨iff_of_true ⟨_, rfl⟩ ⟨_, _, hleft.defect⟩, fun index message => ⟨?_, ?_⟩⟩
    · rintro ⟨e, he, -, rfl, rfl⟩
      obtain rfl := Except.error.inj he
      exact hleft
    · intro hother
      obtain ⟨hindex, hmessage⟩ := hleft.unique hother
      exact ⟨_, rfl, rfl, hindex, hmessage⟩

end Calculator
