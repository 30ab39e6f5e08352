import QuantumScript.Proofs.Run.Entered
import QuantumScript.Proofs.Run.Limit
import QuantumScript.Proofs.Session.History

/-!
# The line that a report quotes

The report of a fault quotes the line of a source text that the fault's region names. A session
reports the faults of a text with that text. But a fault can also arise in a function that an
earlier text has declared, and then its region is one of that earlier text.

`Session.origin` is the text that a fault arises in, found by the account of where code comes from.
It is the text that was run, or the text of a function of an earlier text that was entered. So the
report quotes the right line whenever no such function is entered (`Session.quoted_line_of_origin`).
One that is entered is enough for the wrong line (`Session.quotes_calling_text`).
-/

namespace QuantumScript

namespace Fault

/-- The line of a source text that the report of a fault quotes. -/
def quoted? (fault : Fault) (source : String) : Option String :=
  fault.span.bind fun span => Text.line? source span.line

/-- A fault arises in a text: where the text cannot be read, or at a region of the program that is
read from it, so that what holds everywhere in the program holds of the region. -/
def ArisesIn (fault : Fault) (text : String) : Prop :=
  parseSource text = .error fault ∨
    ∃ program, parseSource text = .ok program ∧
      ∀ Q : Span → Prop, EverywhereAmong Q program → fault.Located Q

end Fault

/-- What holds of all regions holds everywhere in a program that is read. -/
theorem everywhereAmong_of_forall {Q : Span → Prop} (h : ∀ span, Q span) {text : String}
    {program : Program} (hread : parseSource text = .ok program) : EverywhereAmong Q program := by
  obtain ⟨tokens, -, hparse⟩ := parseSource_eq_ok.1 hread
  exact Program.everywhere_of_parse (fun _ _ _ _ => h _) ⟨fun _ _ => h _, h _⟩ hparse

namespace Session

/-- The account after a source text is run in a session whose closures come from some texts. -/
def account (session : Session) (known : List String) (source : String) : Account :=
  match parseSource source with
  | .error _ => ⟨known, source⟩
  | .ok program =>
    program.account session.limit session.fuel { session.machine with depth := 0 } ⟨known, source⟩

/-- While a source text is run in a session, the body of a function is started. -/
def Enters (session : Session) (source : String) (id : ClosureId) : Prop :=
  ∃ program, parseSource source = .ok program ∧
    Eval.Enters session.limit session.fuel program { session.machine with depth := 0 } id

/-- The texts that the closures of a session come from after some source texts. -/
def closureTexts (known : List String) : Session → List String → List String
  | _, [] => known
  | session, source :: rest =>
    closureTexts (session.account known source).closures (session.eval source).2 rest

/-- The text in which a source text that is run after others in a fresh session comes to its end:
the text that the code was read from that was run last. -/
def origin (session : Session) (sources : List String) (source : String) : String :=
  ((session.ran sources).account (session.closureTexts [] sources) source).current

/-- Something that depends on the text holds everywhere in the programs that are read from some
texts. -/
def Holds (P : String → Span → Prop) (texts : List String) : Prop :=
  ∀ text ∈ texts, ∀ program, parseSource text = .ok program → EverywhereAmong (P text) program

variable {P : String → Span → Prop} {session : Session} {known sources : List String}
  {source : String}

/-- A source text is traced: its faults arise in the text that the account names. -/
theorem traced_eval (hP : ∀ program, parseSource source = .ok program →
      EverywhereAmong (P source) program) (hfits : Account.Fits P ⟨known, source⟩ session.machine) :
    (session.account known source).Fits P (session.eval source).2.machine ∧
      ∀ program fault, parseSource source = .ok program →
        (session.eval source).1 = .failed fault →
        fault.Located (P (session.account known source).current) := by
  unfold account eval
  cases hparse : parseSource source with
  | error fault => exact ⟨hfits, nofun⟩
  | ok program =>
    have hfresh : Account.Fits P ⟨known, source⟩ { session.machine with depth := 0 } :=
      ⟨hfits.length_eq, hfits.bodies⟩
    obtain ⟨hfound, hfault⟩ := Eval.traced_program session.limit session.fuel
      (hP program hparse) hfresh
    exact ⟨hfound, fun _ fault _ => hfault fault⟩

/-- The closures of a session come from the texts that the account has for them. -/
theorem fits_ran (hP : Holds P sources) (hfits : Account.Fits P ⟨known, source⟩ session.machine) :
    Account.Fits P ⟨session.closureTexts known sources, source⟩ (session.ran sources).machine := by
  induction sources generalizing session known with
  | nil => exact hfits
  | cons first rest ih =>
    obtain ⟨hfirst, hrest⟩ := List.forall_mem_cons.1 hP
    have hnext := (traced_eval hfirst ⟨hfits.length_eq, hfits.bodies⟩).1
    exact ih hrest (hnext.of_closures_eq rfl)

/-- A fresh session has no closures. -/
theorem fits_start (natives : List Native) (limit fuel : Nat) (input : List String)
    (dice : Dice) :
    Account.Fits P ⟨[], source⟩ (start natives limit fuel input dice).machine := by
  have hclosures := closures_libraryStore natives
  refine ⟨(congrArg Array.size hclosures).symm, fun _ htext => ?_⟩
  simp at htext

/-- What holds everywhere in the programs of the texts holds of the region of a fault, in the way
that it does in the text that the fault arises in. -/
theorem located_origin (P : String → Span → Prop) (natives : List Native)
    (limit fuel : Nat) (input : List String) (dice : Dice) (hP : Holds P (source :: sources))
    {program : Program} (hread : parseSource source = .ok program) {fault : Fault}
    (h : (((start natives limit fuel input dice).ran sources).eval source).1 = .failed fault) :
    fault.Located (P ((start natives limit fuel input dice).origin sources source)) := by
  obtain ⟨hsource, hsources⟩ := List.forall_mem_cons.1 hP
  exact (traced_eval hsource (fits_ran hsources (fits_start natives limit fuel input dice))).2
    program fault hread h

/-- The text that a fault arises in is the text that is run or one before it, and the fault arises
there. -/
theorem arisesIn_origin (natives : List Native) (limit fuel : Nat) (input : List String)
    (dice : Dice)
    (sources : List String) (source : String) {fault : Fault}
    (h : (((start natives limit fuel input dice).ran sources).eval source).1 = .failed fault) :
    (start natives limit fuel input dice).origin sources source ∈ source :: sources ∧
      fault.ArisesIn ((start natives limit fuel input dice).origin sources source) := by
  cases hread : parseSource source with
  | error cause =>
    have horigin : (start natives limit fuel input dice).origin sources source = source := by
      rw [origin, account, hread]
    have hfault : cause = fault := by
      rw [eval, hread] at h
      cases h
      rfl
    rw [horigin]
    exact ⟨List.mem_cons_self, .inl (hfault ▸ hread)⟩
  | ok program =>
    -- The text is one of those that are run and can be read.
    have hread_all : Holds
        (fun text _ => text ∈ source :: sources ∧ ∃ found, parseSource text = .ok found)
        (source :: sources) := fun text hmem found hfound =>
      everywhereAmong_of_forall (fun _ => ⟨hmem, found, hfound⟩) hfound
    obtain ⟨-, -, hmem, found, hfound⟩ :=
      located_origin _ natives limit fuel input dice hread_all hread h
    refine ⟨hmem, .inr ⟨found, hfound, fun Q hQ => ?_⟩⟩
    generalize horigin : (start natives limit fuel input dice).origin sources source = text
      at hfound
    -- What holds everywhere in its program is asked of no other text.
    have hasked : Holds (fun other span => other = text → Q span) (source :: sources) := by
      intro other _ read hother
      by_cases heq : other = text
      · subst heq
        rw [hfound, Except.ok.injEq] at hother
        simpa [hother] using hQ
      · exact everywhereAmong_of_forall (fun _ h => absurd h heq) hother
    obtain ⟨span, hspan, hholds⟩ := located_origin _ natives limit fuel input dice hasked hread h
    exact ⟨span, hspan, hholds horigin⟩

/-- The account has one text for each closure. -/
theorem length_closureTexts (natives : List Native) (limit fuel : Nat) (input : List String)
    (dice : Dice) (sources : List String) :
    ((start natives limit fuel input dice).closureTexts [] sources).length =
      ((start natives limit fuel input dice).ran sources).machine.store.closures.size := by
  have hall : Holds (fun _ _ => True) sources := fun _ _ _ hread =>
    everywhereAmong_of_forall (fun _ => trivial) hread
  have hfresh : Account.Fits (fun _ _ => True) ⟨[], ""⟩
      (start natives limit fuel input dice).machine := fits_start natives limit fuel input dice
  exact (fits_ran hall hfresh).length_eq

/-- A source text comes to its end in itself, or in the text of a function that it has entered. -/
theorem current_account (session : Session) (known : List String) (source : String) :
    (session.account known source).current = source ∨
      ∃ id, session.Enters source id ∧
        known[id.index]? = some (session.account known source).current := by
  unfold account
  cases hread : parseSource source with
  | error fault => exact .inl rfl
  | ok program =>
    have hfrom : Account.From (fun text => text = source ∨ ∃ id, session.Enters source id ∧
        known[id.index]? = some text) known ⟨known, source⟩ :=
      ⟨.inl rfl, [], (List.append_nil known).symm, nofun⟩
    refine (Eval.account_from (fun id hid text htext => ?_) hfrom).current
    exact .inr ⟨id, ⟨program, hread, hid⟩, htext⟩

/-- Whatever source texts are run in a fresh session: if the next one fails, the fault arises in
that text or in one before it, the origin. The origin is the text itself or the text of a function
that was there before and was entered. So if no such function is entered, the origin is the text
itself, and whatever line the report quotes is the right one. -/
theorem quoted_line_of_origin (natives : List Native) (limit fuel : Nat) (input : List String)
    (dice : Dice) (sources : List String) (source : String) (fault : Fault)
    (h : (((start natives limit fuel input dice).ran sources).eval source).1 = .failed fault) :
    let before := (start natives limit fuel input dice).ran sources
    let texts := (start natives limit fuel input dice).closureTexts [] sources
    let origin := (start natives limit fuel input dice).origin sources source
    origin ∈ source :: sources ∧ fault.ArisesIn origin ∧
      texts.length = before.machine.store.closures.size ∧
      (origin = source ∨ ∃ id, before.Enters source id ∧ texts[id.index]? = some origin) ∧
      ((∀ id, before.Enters source id → before.machine.store.closures.size ≤ id.index) →
        origin = source ∧
          ∀ line, fault.quoted? source = some line → fault.quoted? origin = some line) := by
  intro before texts origin
  obtain ⟨hmem, harises⟩ := arisesIn_origin natives limit fuel input dice sources source h
  have hlength : texts.length = before.machine.store.closures.size :=
    length_closureTexts natives limit fuel input dice sources
  have hentered : origin = source ∨
      ∃ id, before.Enters source id ∧ texts[id.index]? = some origin :=
    current_account before texts source
  refine ⟨hmem, harises, hlength, hentered, fun hfresh => ?_⟩
  have horigin : origin = source := by
    rcases hentered with horigin | ⟨id, hid, htext⟩
    · exact horigin
    · -- The text of a function that is entered is known only if the function was there before.
      obtain ⟨hlt, -⟩ := List.getElem?_eq_some_iff.1 htext
      have hge := hfresh id hid
      omega
  refine ⟨horigin, fun line hline => ?_⟩
  rw [horigin]
  exact hline

/-! ## A function of an earlier text -/

/-- A text that declares a function, in which a name is used that is bound nowhere. -/
def declaringText : String := "function f() \x7b return x \x7d"

/-- A text that calls the function. -/
def callingText : String := "f()"

/-- The fault of the call: the name in the body of the function is not bound. -/
def unboundFault : Fault := ⟨.undefinedVariable "x", some ⟨22, 23, 1, 23⟩⟩

/-- The program of the text that declares the function. -/
theorem parseSource_declaringText : parseSource declaringText =
    .ok [.function "f" [] [.giveBack (some (.name "x" ⟨22, 23, 1, 23⟩)) ⟨15, 21, 1, 16⟩]
      ⟨0, 8, 1, 1⟩] := by
  have htokens : tokenize declaringText =
      .ok ⟨[⟨.keyword .function, ⟨0, 8, 1, 1⟩, "function"⟩, ⟨.name "f", ⟨9, 10, 1, 10⟩, "f"⟩,
        ⟨.symbol .openParen, ⟨10, 11, 1, 11⟩, "("⟩, ⟨.symbol .closeParen, ⟨11, 12, 1, 12⟩, ")"⟩,
        ⟨.symbol .openBrace, ⟨13, 14, 1, 14⟩, "\x7b"⟩,
        ⟨.keyword .giveBack, ⟨15, 21, 1, 16⟩, "return"⟩, ⟨.name "x", ⟨22, 23, 1, 23⟩, "x"⟩,
        ⟨.symbol .closeBrace, ⟨24, 25, 1, 25⟩, "\x7d"⟩], ⟨25, 25, 1, 26⟩⟩ := by
    with_unfolding_all rfl
  refine parseSource_eq_ok.2 ⟨_, htokens, ?_⟩
  cbv

/-- The program of the text that calls it. -/
theorem parseSource_callingText : parseSource callingText =
    .ok [.expr (.call (.name "f" ⟨0, 1, 1, 1⟩) [] ⟨0, 3, 1, 1⟩)] := by
  have htokens : tokenize callingText =
      .ok ⟨[⟨.name "f", ⟨0, 1, 1, 1⟩, "f"⟩, ⟨.symbol .openParen, ⟨1, 2, 1, 2⟩, "("⟩,
        ⟨.symbol .closeParen, ⟨2, 3, 1, 3⟩, ")"⟩], ⟨3, 3, 1, 4⟩⟩ := by
    with_unfolding_all rfl
  refine parseSource_eq_ok.2 ⟨_, htokens, ?_⟩
  cbv

/-- The call fails in the body of the function. -/
theorem eval_callingText :
    (((start [] 8 8 [] .zeros).ran [declaringText]).eval callingText).1 = .failed unboundFault := by
  simp only [ran, List.foldl_cons, List.foldl_nil, eval, parseSource_declaringText,
    parseSource_callingText, run]
  decide +kernel

/-- The body comes from the text that declares the function. -/
theorem origin_callingText :
    (start [] 8 8 [] .zeros).origin [declaringText] callingText = declaringText := by
  simp only [origin, ran, List.foldl_cons, List.foldl_nil, closureTexts, account, eval,
    parseSource_declaringText, parseSource_callingText, run]
  decide +kernel

/-- The fault of the call arises in the text of the function that is entered. -/
theorem quoted_line_of_origin_called :
    (((start [] 8 8 [] .zeros).ran [declaringText]).eval callingText).1 = .failed unboundFault ∧
      unboundFault.ArisesIn declaringText ∧
      ∃ id, ((start [] 8 8 [] .zeros).ran [declaringText]).Enters callingText id ∧
        ((start [] 8 8 [] .zeros).closureTexts [] [declaringText])[id.index]? =
          some declaringText := by
  obtain ⟨-, harises, -, hentered, -⟩ := quoted_line_of_origin [] 8 8 [] .zeros [declaringText]
    callingText unboundFault eval_callingText
  rw [origin_callingText] at harises hentered
  refine ⟨eval_callingText, harises, hentered.resolve_left ?_⟩
  decide +kernel

/-- The report of the call quotes the text that calls the function, where the fault arises in the
text that declares it. -/
theorem quotes_calling_text :
    (((start [] 8 8 [] .zeros).ran [declaringText]).eval callingText).1 = .failed unboundFault ∧
      unboundFault.quoted? callingText = some callingText ∧
      unboundFault.quoted? ((start [] 8 8 [] .zeros).origin [declaringText] callingText) =
        some declaringText ∧
      ¬ ∀ line, unboundFault.quoted? callingText = some line →
        unboundFault.quoted? ((start [] 8 8 [] .zeros).origin [declaringText] callingText) =
          some line := by
  have hcalling : unboundFault.quoted? callingText = some callingText := by decide +kernel
  have hdeclaring : unboundFault.quoted? declaringText = some declaringText := by decide +kernel
  rw [origin_callingText]
  refine ⟨eval_callingText, hcalling, hdeclaring, fun h => ?_⟩
  have hsame := (h callingText hcalling).symm.trans hdeclaring
  revert hsame
  decide +kernel

end Session

end QuantumScript
