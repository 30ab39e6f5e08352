import QuantumScript.Proofs.Session.Join
import QuantumScript.Shell.Repl

/-!
# Typed lines and the text they make

Lines that are typed in an interactive session one after the other do what the text does that has
them as its lines. A line may take some of the lines after it as its input; the text gets these as
its input instead (`Sitting.agree`).
-/

namespace QuantumScript

/-- Texts that can be read can be read when they are joined by line ends, as the programs of all of
them. -/
theorem parseSource_intercalate {sources : List String} {programs : List Program}
    (hne : sources ≠ []) (h : sources.map parseSource = programs.map Except.ok) :
    ∃ p : Program, parseSource ("\n".intercalate sources) = .ok p ∧
      Program.Same programs.flatten p := by
  induction sources generalizing programs with
  | nil => exact absurd rfl hne
  | cons s sources ih =>
    cases programs with
    | nil => cases h
    | cons p programs =>
      simp only [List.map_cons, List.cons.injEq] at h
      obtain ⟨hs, hrest⟩ := h
      cases sources with
      | nil =>
        cases programs with
        | nil => exact ⟨p, by simpa using hs, by simp [Program.Same]⟩
        | cons => cases hrest
      | cons t sources =>
        obtain ⟨q, hq, hsame⟩ := ih (by simp) hrest
        obtain ⟨q', hjoin, hsame'⟩ := parseSource_join hs hq
        refine ⟨p ++ q', by rw [String.intercalate_cons_cons]; exact hjoin, ?_⟩
        rw [List.flatten_cons]
        exact Program.Same.append rfl (hsame.trans hsame')

namespace Shell

/-- A session and the lines that it has still to read. -/
structure Typing where
  /-- What the lines before have left. -/
  session : Session
  /-- The lines. -/
  lines : List Line

/-- What is typed after the run of a line: the lines that it has not taken as input. -/
def nextTyping (session : Session) (source : String) (rest : List Line) : Typing :=
  let step := evalLine session source rest
  ⟨step.session, rest.drop step.taken⟩

/-- An interactive session reads lines, none of which is a command, and runs them up to one that is
the last or yields no value: from what is typed it goes through the source texts `sources`, which
take the lines `taken` as input, and comes to an outcome of the last of them and to what is left. -/
inductive Sitting : Typing → List String → List Line → Outcome Value → Typing → Prop
  /-- A blank line does nothing. -/
  | blank {session : Session} {line : Line} {rest taken : List Line} {sources : List String}
    {outcome : Outcome Value} {left : Typing} (order : Order.ofLine line = .nothing)
    (later : Sitting ⟨session, rest⟩ sources taken outcome left) :
    Sitting ⟨session, line :: rest⟩ sources taken outcome left
  /-- The last line. -/
  | last {session : Session} {line : Line} {source : String} {rest : List Line}
    (order : Order.ofLine line = .run source) :
    Sitting ⟨session, line :: rest⟩ [source] (rest.take (evalLine session source rest).taken)
      (evalLine session source rest).outcome (nextTyping session source rest)
  /-- A line that yields a value, and the lines after it. -/
  | next {session : Session} {line : Line} {source : String} {rest taken : List Line}
    {sources : List String} {outcome : Outcome Value} {left : Typing} {value : Value}
    (order : Order.ofLine line = .run source)
    (done : (evalLine session source rest).outcome = .done value)
    (later : Sitting (nextTyping session source rest) sources taken outcome left) :
    Sitting ⟨session, line :: rest⟩ (source :: sources)
      (rest.take (evalLine session source rest).taken ++ taken) outcome left

/-! ## What is shown -/

namespace Report

/-- Output before output. -/
@[simp]
theorem after_after (first second : List Output) (report : Report) :
    (report.after second).after first = report.after (first ++ second) := by
  simp [after]

/-- Output before that of a command that crashes. -/
@[simp]
theorem after_crash (first second : List Output) :
    (crash second).after first = crash (first ++ second) :=
  rfl

end Report

/-- Lines that were taken as input are passed over. -/
theorem replLoop_taken (ask : List Output) (fresh session : Session) (taken : Nat)
    (lines : List Line) :
    replLoop ask fresh session taken lines = replLoop ask fresh session 0 (lines.drop taken) := by
  -- Each line that is passed over counts off one of those taken.
  induction lines generalizing taken with
  | nil => simp [replLoop]
  | cons line rest ih =>
    cases taken with
    | zero => rfl
    | succ taken => exact ih taken

/-- A line that is run and does not crash shows something, and the session goes on with what is
left. -/
theorem replLoop_run {session : Session} {line : Line} {source : String} {rest : List Line}
    (order : Order.ofLine line = .run source)
    (hends : (evalLine session source rest).outcome ≠ .crashed) (ask : List Output)
    (fresh : Session) :
    replLoop ask fresh session 0 (line :: rest) =
      (replLoop ask fresh (nextTyping session source rest).session 0
        (nextTyping session source rest).lines).after
          (ask ++ (evalLine session source rest).shown) := by
  rw [nextTyping, ← replLoop_taken, replLoop, order]
  dsimp only
  split
  · exact absurd ‹_› hends
  · exact Report.after_after ..

/-- An interactive session that reads lines shows something and goes on with what is left, unless it
ends in a crash. -/
theorem Sitting.replLoop_eq {start left : Typing} {sources : List String} {taken : List Line}
    {outcome : Outcome Value} (h : Sitting start sources taken outcome left) (ask : List Output)
    (fresh : Session) :
    ∃ shown,
      (outcome ≠ .crashed → replLoop ask fresh start.session 0 start.lines =
        (replLoop ask fresh left.session 0 left.lines).after shown) ∧
      (outcome = .crashed → replLoop ask fresh start.session 0 start.lines = .crash shown) := by
  induction h with
  | blank order _ ih =>
    obtain ⟨shown, hgoes, hcrash⟩ := ih
    refine ⟨ask ++ shown, fun hends => ?_, fun hcrashed => ?_⟩
    · simp [replLoop, order, hgoes hends]
    · simp [replLoop, order, hcrash hcrashed]
  | @last session line source rest order =>
    refine ⟨ask ++ (evalLine session source rest).shown, fun hends => ?_, fun hcrashed => ?_⟩
    · exact replLoop_run order hends ask fresh
    · simp [replLoop, order, hcrashed]
  | @next session line source rest _ _ _ _ _ order done _ ih =>
    obtain ⟨shown, hgoes, hcrash⟩ := ih
    have hrun := replLoop_run order (by rw [done]; nofun) ask fresh
    refine ⟨ask ++ (evalLine session source rest).shown ++ shown, fun hends => ?_,
      fun hcrashed => ?_⟩
    · rw [hrun, hgoes hends, Report.after_after]
    · rw [hrun, hcrash hcrashed, Report.after_crash]

/-! ## What is left -/

/-- A line ends as its text does, with the lines that follow as its input. -/
theorem outcome_evalLine (session : Session) (source : String) (rest : List Line) :
    (evalLine session source rest).outcome =
      ((session.hearing (rest.map Line.input)).eval source).1 :=
  rfl

/-- A line has taken as many lines of input as are not left. -/
theorem taken_evalLine (session : Session) (source : String) (rest : List Line) :
    (evalLine session source rest).taken = rest.length -
      ((session.hearing (rest.map Line.input)).eval source).2.machine.console.pending.length :=
  rfl

/-- A line leaves just the lines that it has not taken as input. -/
theorem pending_nextTyping {source : String} {p : Program} (hp : parseSource source = .ok p)
    (session : Session) (rest : List Line) :
    (nextTyping session source rest).session.machine.console.pending =
      (nextTyping session source rest).lines.map Line.input := by
  have hsuffix := Session.pending_run (session.hearing (rest.map Line.input)) p
  rw [← Session.eval_eq_run hp] at hsuffix
  have hdrop := List.suffix_iff_eq_drop.1 hsuffix
  have hlength : (session.hearing (rest.map Line.input)).machine.console.pending.length =
      rest.length := List.length_map Line.input
  rw [hlength] at hdrop
  exact hdrop.trans List.map_drop.symm

/-- In a sitting at least one line is read and at least one text is run. -/
theorem Sitting.ne_nil {start left : Typing} {sources : List String} {taken : List Line}
    {outcome : Outcome Value} (h : Sitting start sources taken outcome left) :
    start.lines ≠ [] ∧ sources ≠ [] := by
  induction h with
  | blank _ _ ih => exact ⟨by simp, ih.2⟩
  | last | next => simp

/-- The last of some programs comes after the first, if there are others. -/
theorem getLastD_cons_of_ne_nil (p : Program) {programs : List Program} (h : programs ≠ []) :
    (p :: programs).getLastD [] = programs.getLastD [] := by
  cases programs with
  | nil => exact absurd rfl h
  | cons q programs => rfl

/-- The last of some programs that have no statements has none. -/
theorem getLastD_of_flatten_eq_nil {programs : List Program} (h : programs.flatten = []) :
    programs.getLastD [] = [] := by
  induction programs with
  | nil => rfl
  | cons p programs ih =>
    rw [List.flatten_cons, List.append_eq_nil_iff] at h
    cases programs with
    | nil => exact h.1
    | cons q programs => exact ih h.2

open Session

/-- Typed lines do what the text does that has them as its lines, with the lines that they take as
its input. -/
theorem Sitting.agree {start left : Typing} {sources : List String} {taken : List Line}
    {outcome : Outcome Value} (h : Sitting start sources taken outcome left)
    {programs : List Program} (hread : sources.map parseSource = programs.map Except.ok) :
    Agree (programs.getLastD [])
      ((start.session.hearing ((taken ++ left.lines).map Line.input)).eval
        ("\n".intercalate sources))
      (outcome, left.session.hearing (left.lines.map Line.input)) := by
  induction h generalizing programs with
  | blank order later ih => exact ih hread
  | @last session line source rest order =>
    cases programs with
    | nil => cases hread
    | cons p programs =>
      have hs : parseSource source = .ok p := (List.cons.inj hread).1
      have hlines : rest.take (evalLine session source rest).taken ++
          (nextTyping session source rest).lines = rest := List.take_append_drop ..
      rw [String.intercalate_singleton, hlines,
        hearing_eq_self (pending_nextTyping hs session rest)]
      exact ⟨rfl, fun _ => rfl, .refl _⟩
  | @next session line source rest taken sources outcome left value order done later ih =>
    cases programs with
    | nil => cases hread
    | cons p programs =>
      have hs : parseSource source = .ok p := (List.cons.inj hread).1
      have hrest : sources.map parseSource = programs.map Except.ok := (List.cons.inj hread).2
      obtain ⟨hlines, hsources⟩ := later.ne_nil
      -- The lines after this one make a text of their own, to which the induction applies.
      obtain ⟨q, hq, hsame⟩ := parseSource_intercalate hsources hrest
      -- In the text, the line finds other lines behind those that it takes, and leaves them.
      have htyped : rest.map Line.input =
          (rest.take (evalLine session source rest).taken).map Line.input ++
            (nextTyping session source rest).lines.map Line.input := by
        rw [← List.map_append]
        exact congrArg (List.map Line.input) (List.take_append_drop ..).symm
      have hline : (session.hearing (rest.map Line.input)).eval source =
          (.done value, (nextTyping session source rest).session) := Prod.ext done rfl
      rw [htyped] at hline
      obtain ⟨mid, heval, hmid⟩ := eval_hearing ((taken ++ left.lines).map Line.input) hs
        (fun hnil => absurd (List.map_eq_nil_iff.1 hnil) hlines) hline
        (pending_nextTyping hs session rest)
      have hjoined := (eval_join_of_done hs hq heval).trans (eval_same hq hmid) fun hne => hne
      rw [← List.map_append, ← List.append_assoc,
        ← String.intercalate_cons_of_ne_nil hsources] at hjoined
      have hprograms : programs ≠ [] := by
        rintro rfl
        exact hsources (List.map_eq_nil_iff.1 hrest)
      rw [getLastD_cons_of_ne_nil p hprograms]
      refine hjoined.trans (ih hrest) fun hlast hnil => hlast ?_
      subst hnil
      exact getLastD_of_flatten_eq_nil hsame.symm.eq_nil

/-- A text that is two texts joined by a line end is read as the programs of the two, places aside.
In every session it ends as the first of them does if that yields no value, and leaves the same
session; otherwise it does what the second does in the session that the first leaves. Any number of
lines that are typed in an interactive session, up to one that yields no value, do what the text
does that has them as its lines, and the interactive session goes on with the rest, unless it ends
in a crash. -/
theorem joined_text_agrees {s t : String} {p q : Program} (hp : parseSource s = .ok p)
    (hq : parseSource t = .ok q) :
    (∃ q', parseSource (s ++ "\n" ++ t) = .ok (p ++ q') ∧ q.Same q') ∧
    (∀ session : Session, (∀ value, (session.eval s).1 ≠ .done value) →
      session.eval (s ++ "\n" ++ t) = session.eval s) ∧
    (∀ (session mid : Session) (value : Value), session.eval s = (.done value, mid) →
      Agree q (session.eval (s ++ "\n" ++ t)) (mid.eval t)) ∧
    ∀ (start left : Typing) (sources : List String) (taken : List Line) (outcome : Outcome Value)
      (programs : List Program), Sitting start sources taken outcome left →
      sources.map parseSource = programs.map Except.ok →
      (∃ program : Program, parseSource ("\n".intercalate sources) = .ok program ∧
        Program.Same programs.flatten program) ∧
      Agree (programs.getLastD [])
        ((start.session.hearing ((taken ++ left.lines).map Line.input)).eval
          ("\n".intercalate sources))
        (outcome, left.session.hearing (left.lines.map Line.input)) ∧
      ∀ ask fresh, ∃ shown,
        (outcome ≠ .crashed → replLoop ask fresh start.session 0 start.lines =
          (replLoop ask fresh left.session 0 left.lines).after shown) ∧
        (outcome = .crashed → replLoop ask fresh start.session 0 start.lines = .crash shown) :=
  ⟨parseSource_join hp hq, fun _ => eval_join_of_stopped hp hq,
    fun _ _ _ => eval_join_of_done hp hq, fun _ _ _ _ _ _ sitting hread =>
      ⟨parseSource_intercalate sitting.ne_nil.2 hread, sitting.agree hread,
        sitting.replLoop_eq⟩⟩

/-- A condition and an assignment on the next line, which the line editor returns as they are. -/
def conditionalLines : List Line :=
  [⟨"if (true) \x7b null \x7d # one", "if (true) \x7b null \x7d # one"⟩, ⟨"x = true", "x = true"⟩]

/-- A condition, behind which an `else` could stand on the next line, and an assignment that stands
there instead do the same in one text and line by line. -/
theorem joined_text_agrees_conditional :
    ∃ p q, parseSource "if (true) \x7b null \x7d # one" = .ok p ∧ parseSource "x = true" = .ok q ∧
      p ≠ [] ∧ q ≠ [] ∧
      (∃ q', parseSource ("if (true) \x7b null \x7d # one" ++ "\n" ++ "x = true") = .ok (p ++ q') ∧
        q.Same q') ∧
      ∃ taken outcome left,
        Sitting ⟨Session.start [] 8 8 [] .zeros, conditionalLines⟩
          ["if (true) \x7b null \x7d # one", "x = true"] taken outcome left ∧
        Agree q
          (((Session.start [] 8 8 [] .zeros).hearing ((taken ++ left.lines).map Line.input)).eval
            ("\n".intercalate ["if (true) \x7b null \x7d # one", "x = true"]))
          (outcome, left.session.hearing (left.lines.map Line.input)) := by
  have hfirstTokens : tokenize "if (true) \x7b null \x7d # one" =
      .ok ⟨[⟨.keyword .cond, ⟨0, 2, 1, 1⟩, "if"⟩, ⟨.symbol .openParen, ⟨3, 4, 1, 4⟩, "("⟩,
        ⟨.keyword .yes, ⟨4, 8, 1, 5⟩, "true"⟩, ⟨.symbol .closeParen, ⟨8, 9, 1, 9⟩, ")"⟩,
        ⟨.symbol .openBrace, ⟨10, 11, 1, 11⟩, "\x7b"⟩, ⟨.keyword .null, ⟨12, 16, 1, 13⟩, "null"⟩,
        ⟨.symbol .closeBrace, ⟨17, 18, 1, 18⟩, "\x7d"⟩], ⟨24, 24, 1, 25⟩⟩ := by
    with_unfolding_all rfl
  have hsecondTokens : tokenize "x = true" =
      .ok ⟨[⟨.name "x", ⟨0, 1, 1, 1⟩, "x"⟩, ⟨.symbol .assign, ⟨2, 3, 1, 3⟩, "="⟩,
        ⟨.keyword .yes, ⟨4, 8, 1, 5⟩, "true"⟩], ⟨8, 8, 1, 9⟩⟩ := by
    with_unfolding_all rfl
  have hp : parseSource "if (true) \x7b null \x7d # one" =
      .ok [.cond (.bool true ⟨4, 8, 1, 5⟩)
        (.block [.expr (.null ⟨12, 16, 1, 13⟩)] ⟨10, 11, 1, 11⟩) none ⟨0, 2, 1, 1⟩] := by
    refine parseSource_eq_ok.2 ⟨_, hfirstTokens, ?_⟩
    cbv
  have hq : parseSource "x = true" =
      .ok [.expr (.assign "x" (.bool true ⟨4, 8, 1, 5⟩) ⟨0, 8, 1, 1⟩)] := by
    refine parseSource_eq_ok.2 ⟨_, hsecondTokens, ?_⟩
    cbv
  -- The first line yields `null` and takes no line of input.
  have hdone : (evalLine (Session.start [] 8 8 [] .zeros) "if (true) \x7b null \x7d # one"
      [⟨"x = true", "x = true"⟩]).outcome = .done .null := by
    rw [outcome_evalLine, eval_eq_run hp]
    rfl
  have htaken : (evalLine (Session.start [] 8 8 [] .zeros) "if (true) \x7b null \x7d # one"
      [⟨"x = true", "x = true"⟩]).taken = 0 := by
    rw [taken_evalLine, eval_eq_run hp]
    rfl
  obtain ⟨mid, hnext⟩ : ∃ mid, nextTyping (Session.start [] 8 8 [] .zeros)
      "if (true) \x7b null \x7d # one" [⟨"x = true", "x = true"⟩] =
        ⟨mid, [⟨"x = true", "x = true"⟩]⟩ := by
    unfold nextTyping
    dsimp only
    rw [htaken]
    exact ⟨_, rfl⟩
  have hfirst : Order.ofLine ⟨"if (true) \x7b null \x7d # one", "if (true) \x7b null \x7d # one"⟩ =
      .run "if (true) \x7b null \x7d # one" := by
    decide +kernel
  have hsecond : Order.ofLine ⟨"x = true", "x = true"⟩ = .run "x = true" := by
    decide +kernel
  have hlast := @Sitting.last mid _ "x = true" [] hsecond
  rw [← hnext] at hlast
  have sitting := Sitting.next hfirst hdone hlast
  obtain ⟨hjoin, -, -, hsitting⟩ := joined_text_agrees hp hq
  have hboth := congr (congrArg (fun first second => [first, second]) hp) hq
  obtain ⟨-, hagree, -⟩ := hsitting _ _ _ _ _ [_, _] sitting hboth
  exact ⟨_, _, hp, hq, by simp, by simp, hjoin, _, _, _, sitting, hagree⟩

end Shell

end QuantumScript
