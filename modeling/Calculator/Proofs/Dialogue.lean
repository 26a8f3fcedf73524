import Calculator.Proofs.Answers
import Calculator.Proofs.Precision
import Calculator.Session

/-!
# Whole sessions

A session answers its lines one after another, and keeps nothing from one to the next.
It comes to the end of its input unless a line cannot be answered; and no line is to
blame for that but one with a finite value, where the place to round to is above the
largest exponent.  At the first such line the session breaks off.

## Main definitions

* `HasFiniteValue line` — the line can be calculated, with a finite result.
* `transcript texts` — what is printed for lines that are answered.

## Main results

* `exists_answer`, `answer_eq_refusal` — which lines are answered.
* `converse_append`, `converse_crash` — runs of lines that are answered, and the first
  that is not.
* `session_runs` — **how sessions go**.
-/

namespace Calculator

variable {settings : Settings} {line : String} {before lines texts : List String}

/-! ### One line -/

/-- The line can be calculated, and the result is a finite number. -/
def HasFiniteValue (line : String) : Prop :=
  ∃ x, (calculate line).value = .ok x ∧ x.isFinite = true

/-- White space has the value zero. -/
theorem hasFiniteValue_of_blank (h : ∀ c ∈ line.toList, isBlank c = true) :
    HasFiniteValue line :=
  ⟨0, (value_calculate line).trans (valueOf_blank h), by decide +kernel⟩

/-- A line is answered if values can be shown, or if it has no value to be rounded. -/
theorem exists_answer
    (h : -Decimal.maxExponent ≤ settings.places ∨ ¬ HasFiniteValue line) :
    ∃ text, (answer settings line).value = .ok text := by
  rcases value_cases line with ⟨hvalid, ⟨x, hx⟩ | hx⟩ | ⟨hinvalid, e, he, hx⟩
  · have hshow : -Decimal.maxExponent ≤ settings.places ∨ x.isFinite = false := by
      refine h.imp_right fun hvalue => ?_
      rw [← Bool.not_eq_true]
      exact fun hfinite => hvalue ⟨x, (value_calculate line).trans hx, hfinite⟩
    obtain ⟨text, htext⟩ := exists_display hshow
    exact ⟨tokensBefore settings line ++ text, by rw [answer_of_value hx, htext]⟩
  · exact ⟨_, answer_of_divisionByZero hx⟩
  · exact ⟨_, answer_of_invalid hinvalid hx⟩

/-- A line is not answered if it has a value to be rounded and rounding is refused. -/
theorem answer_eq_refusal (hplaces : settings.places < -Decimal.maxExponent)
    (h : HasFiniteValue line) :
    (answer settings line).value = .error (.display (refusal settings.places)) := by
  obtain ⟨x, hx, hfinite⟩ := h
  rw [value_calculate] at hx
  rw [answer_of_value hx, display_eq_refusal hfinite hplaces]

/-! ### Line by line -/

/-- Lines with the texts they are answered with, each by itself. -/
def Answered (settings : Settings) : List String → List String → Prop :=
  List.Forall₂ fun line text => (answer settings line).value = .ok text

/-- What is printed for lines that are answered. -/
def transcript (texts : List String) : String :=
  String.join (texts.map fun text => prompt ++ text ++ "\n")

/-- A line that is answered is followed by the session over the others. -/
theorem converse_cons_ok {text : String} (h : (answer settings line).value = .ok text)
    (lines : List String) :
    (converse settings (line :: lines)).value = (converse settings lines).value.after text := by
  simp [converse, h]

/-- A line that is not answered is the last to be read. -/
theorem converse_cons_error {crash : Crash} (h : (answer settings line).value = .error crash)
    (lines : List String) :
    converse settings (line :: lines) =
      ⟨⟨prompt, .crashed crash⟩, (answer settings line).records⟩ := by
  rw [converse]
  change Logged.andThen (answer settings line) _ = _
  rw [Logged.andThen, h, Logged.value_pure, Logged.records_pure, List.append_nil]

/-- A session over lines that are answered prints their transcript and goes on. -/
theorem converse_append (h : Answered settings before texts) (lines : List String) :
    (converse settings (before ++ lines)).value =
      ⟨transcript texts ++ (converse settings lines).value.output,
        (converse settings lines).value.ending⟩ := by
  induction h with
  | nil => simp [transcript]
  | cons hline hbefore ih =>
    rw [List.cons_append, converse_cons_ok hline, ih]
    simp [Session.after, transcript, String.append_assoc]

/-- The lines behind one that is not answered make no difference. -/
theorem converse_crash {crash : Crash} (h : (answer settings line).value = .error crash)
    (before lines later : List String) :
    converse settings (before ++ line :: later) = converse settings (before ++ line :: lines) := by
  induction before with
  | nil => rw [List.nil_append, List.nil_append, converse_cons_error h, converse_cons_error h]
  | cons earlier before ih => rw [List.cons_append, List.cons_append, converse, ih, ← converse]

/-- Lines are all answered if each of them is. -/
theorem exists_answered (h : ∀ line ∈ lines, ∃ text, (answer settings line).value = .ok text) :
    ∃ texts, Answered settings lines texts := by
  induction lines with
  | nil => exact ⟨[], .nil⟩
  | cons line lines ih =>
    obtain ⟨⟨text, htext⟩, hlines⟩ := List.forall_mem_cons.1 h
    obtain ⟨texts, htexts⟩ := ih hlines
    exact ⟨text :: texts, .cons htext htexts⟩

/-- Of some lines that have a property there is a first. -/
theorem exists_first {P : String → Prop} (h : ∃ line ∈ lines, P line) :
    ∃ before line after, lines = before ++ line :: after ∧
      (∀ earlier ∈ before, ¬ P earlier) ∧ P line := by
  classical
  have hfound : (lines.find? fun line => decide (P line)).isSome = true := by
    simpa [List.find?_isSome] using h
  obtain ⟨line, hline⟩ := Option.isSome_iff_exists.1 hfound
  obtain ⟨hP, before, after, hlines, hbefore⟩ := List.find?_eq_some_iff_append.1 hline
  exact ⟨before, line, after, hlines, by simpa using hbefore, by simpa using hP⟩

/-! ### Whole sessions -/

/-- **How sessions go.**  If the place to round to is not above the largest exponent, or no
line has a finite value, then every line is answered by itself and the session comes to
its end.  Otherwise it breaks off at the first line that has a finite value, as white space
has: the lines before it are answered, nothing is printed of its own answer, and the lines
behind it are not read. -/
theorem session_runs {args : List String} (hargs : Settings.ofArgs? args = some settings)
    (lines : List String) :
    (-999999 ≤ settings.places ∨ (∀ line ∈ lines, ¬ HasFiniteValue line) →
      ∃ texts, Answered settings lines texts ∧
        (session args lines).value = ⟨transcript texts ++ "> " ++ "\n", .finished⟩ ∧
        (session args lines).value.ending.exitCode = 0) ∧
    (¬ (-999999 ≤ settings.places ∨ ∀ line ∈ lines, ¬ HasFiniteValue line) →
      ∃ before line after texts, lines = before ++ line :: after ∧
        (∀ earlier ∈ before, ¬ HasFiniteValue earlier) ∧ HasFiniteValue line ∧
        Answered settings before texts ∧
        (session args lines).value = ⟨transcript texts ++ "> ", .crashed (.display
          (if 2000054 < -settings.places then .invalidOperation else .overflow))⟩ ∧
        (session args lines).value.ending.exitCode = 1 ∧
        ∀ later, session args (before ++ line :: later) = session args lines) ∧
    ∀ line : String, (∀ c ∈ line.toList, isBlank c = true) → HasFiniteValue line := by
  have hsession : session args = converse settings := by
    funext lines
    rw [session, Settings.ofArgs?_eq_some_iff.1 hargs]
  rw [hsession]
  refine ⟨fun h => ?_, fun h => ?_, fun line => hasFiniteValue_of_blank⟩
  · obtain ⟨texts, htexts⟩ : ∃ texts, Answered settings lines texts :=
      exists_answered fun line hline => exists_answer (h.imp_right fun hlines => hlines line hline)
    have hrun := converse_append htexts []
    rw [List.append_nil] at hrun
    rw [hrun]
    exact ⟨texts, htexts, by simp [converse, prompt, String.append_assoc], rfl⟩
  · obtain ⟨hplaces, hfinite⟩ := not_or.1 h
    obtain ⟨before, line, after, rfl, hbefore, hline⟩ :=
      exists_first (P := HasFiniteValue) (by simpa using hfinite)
    obtain ⟨texts, htexts⟩ : ∃ texts, Answered settings before texts :=
      exists_answered fun earlier hearlier => exists_answer (Or.inr (hbefore earlier hearlier))
    have hcrash : (answer settings line).value = .error (.display (refusal settings.places)) :=
      answer_eq_refusal (not_le.1 hplaces) hline
    have hrun := converse_append htexts (line :: after)
    rw [converse_cons_error hcrash] at hrun
    rw [hrun]
    exact ⟨before, line, after, texts, rfl, hbefore, hline, htexts, rfl, rfl,
      fun later => converse_crash hcrash before after later⟩

theorem session_runs_emptyLine :
    Settings.ofArgs? ["--max-decimals=-1000000"] = some ⟨-1000000, false⟩ ∧
    ∃ text, (answer ⟨-1000000, false⟩ ")(").value = .ok text ∧
      (session ["--max-decimals=-1000000"] [")(", "", "1"]).value =
        ⟨transcript [text] ++ "> ", .crashed (.display .overflow)⟩ := by
  have hargs : Settings.ofArgs? ["--max-decimals=-1000000"] = some ⟨-1000000, false⟩ := by
    decide +kernel
  have hinvalid : ¬ HasFiniteValue ")(" := by
    rintro ⟨x, hx, -⟩
    have hvalid := isValid_of_value ((value_calculate _).symm.trans hx)
    have hnot : (isValid ")(").value = false := by decide +kernel
    rw [hvalid] at hnot
    cases hnot
  obtain ⟨-, hbroken, hblank⟩ := session_runs hargs [")(", "", "1"]
  have hempty : HasFiniteValue "" := hblank "" (by simp)
  have hsome : ¬ ((-999999 : Int) ≤ -1000000 ∨
      ∀ line ∈ [")(", "", "1"], ¬ HasFiniteValue line) := by
    simp [hempty]
  obtain ⟨before, line, after, texts, hlines, hbefore, hline, htexts, hrun, -, -⟩ := hbroken hsome
  -- the first line with a finite value can only be the second line
  match before, hlines with
  | [], hlines =>
    cases hlines
    exact absurd hline hinvalid
  | [_], hlines =>
    cases hlines
    cases htexts with
    | cons htext hnil =>
      cases hnil
      exact ⟨hargs, _, htext, hrun⟩
  | _ :: _ :: _, hlines =>
    obtain ⟨-, rfl, -⟩ : _ ∧ "" = _ ∧ _ := by simpa using hlines
    exact absurd hempty (hbefore "" (by simp))

end Calculator
