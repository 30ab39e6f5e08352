import QuantumScript.Proofs.Parser.Join
import QuantumScript.Proofs.Parser.RoundTrip
import QuantumScript.Proofs.Run.Openings
import QuantumScript.Session

/-!
# The history of a session

The history of a session are the stages of all texts that are run in it, one after the other, also
of texts that fail. From a fresh session on, at every stage everything that is named exists and
every scope lies inside the outermost one; from each stage to every later one, the machine only
grows; and every block, round of a loop and call of a function gets a scope that none before it had
(`Session.history_wellFormed`).
-/

namespace QuantumScript

namespace Session

variable {session : Session}

/-- The session after some source texts. -/
def ran (session : Session) (sources : List String) : Session :=
  sources.foldl (fun session source => (session.eval source).2) session

/-- The stages of a source text: those of the program that it is read as, and then its answer. -/
def stages (session : Session) (source : String) : List Stage :=
  let found := session.eval source
  (match parseSource source with
    | .error _ => []
    | .ok program =>
      (program.plan .null).stages none (Task.run session.limit session.fuel)
        (Task.stages session.limit session.fuel) { session.machine with depth := 0 }) ++
    [.answered found.1 found.2.machine]

/-- The stages of source texts that are run one after the other. -/
def history : Session → List String → List Stage
  | _, [] => []
  | session, source :: rest => session.stages source ++ history (session.eval source).2 rest

/-- A program that is read from a text is well shaped. -/
theorem wellShaped_of_parseSource {source : String} {program : Program}
    (h : parseSource source = .ok program) : program.WellShaped := by
  obtain ⟨tokens, -, hparse⟩ := parseSource_eq_ok.1 h
  exact Program.wellShaped_of_parse hparse

/-- Along the stages of a source text the machine grows. -/
theorem along_stages (h : session.machine.store.WellFormed) (source : String) :
    Along session.machine (session.stages source) (session.eval source).2.machine := by
  unfold stages eval
  cases hparse : parseSource source with
  | error fault => exact (Along.nil (.refl h)).answered nofun
  | ok program =>
    have hfresh := Machine.Becomes.count h 0
    obtain ⟨halong, hvalue⟩ := Eval.along_program session.limit session.fuel
      (wellShaped_of_parseSource hparse) hfresh.wellFormed
    exact (halong.answered hvalue).of_becomes hfresh

/-- A source text gives scopes in turn. -/
theorem inTurn_stages (session : Session) (source : String) :
    InTurn session.machine.store.scopes.size (session.stages source)
      (session.eval source).2.machine.store.scopes.size := by
  unfold stages eval
  cases hparse : parseSource source with
  | error fault => exact .same rfl (.nil _)
  | ok program =>
    have hprogram := Eval.inTurn_program session.limit session.fuel program
      { session.machine with depth := 0 }
    exact hprogram.append (.same rfl (.nil _))

/-- Along the history of a session the machine grows. -/
theorem along_history (h : session.machine.store.WellFormed) (sources : List String) :
    Along session.machine (session.history sources) (session.ran sources).machine := by
  induction sources generalizing session with
  | nil => exact .nil (.refl h)
  | cons source rest ih =>
    have hfirst := along_stages h source
    exact hfirst.append (ih hfirst.becomes.wellFormed)

/-- Along the history of a session, scopes are given in turn. -/
theorem inTurn_history (session : Session) (sources : List String) :
    InTurn session.machine.store.scopes.size (session.history sources)
      (session.ran sources).machine.store.scopes.size := by
  induction sources generalizing session with
  | nil => exact .nil _
  | cons source rest ih => exact (inTurn_stages session source).append (ih _)

/-- The store with library functions bound is well-formed and has one scope. -/
theorem libraryStore_wellFormed (natives : List Native) :
    (libraryStore natives).WellFormed ∧ (libraryStore natives).scopes.size = 1 := by
  refine libraryStore_rec (motive := fun store => store.WellFormed ∧ store.scopes.size = 1)
    ⟨Store.initial_wellFormed, rfl⟩ fun store h f _ => ?_
  have hnative : (Value.native f).LivesIn store := trivial
  exact ⟨h.1.define hnative Store.globalScope f.name, Array.size_modify.trans h.2⟩

/-- Take a fresh session, with any library functions, limit, input and draws, and any source texts
that are run in it one after the other, with however much fuel.

At every stage the store is well-formed, so that all that is named in it exists, and from each of
its scopes the way outwards ends at the outermost one; no parent is passed over when a name is
looked up. What tasks are run on exists, and so does what tasks and texts yield. From each stage to
every later one the machine keeps all scopes with their parents and names, all arrays and all
objects, adds to what it has shown, and takes input from the front.

The scopes that blocks, rounds of a loop through items and calls are given are all different: they
are the scopes after the outermost one, in the order in which they are made. Each round of a loop
with a condition is a block. -/
theorem history_wellFormed (natives : List Native) (limit fuel : Nat) (input : List String)
    (dice : Dice) (sources : List String) :
    let session := start natives limit fuel input dice
    let history := session.history sources
    let machines := session.machine :: history.map Stage.machine
    (∀ m ∈ machines, m.store.WellFormed ∧
      (∀ id, m.store.HasScope id → ∃ chain, m.store.Outwards id chain) ∧
      ∀ id scope, m.store.scope? id = some scope →
        (scope.outer? id.index).map Subtype.val = scope.parent.map ScopeId.index) ∧
    (∀ stage ∈ history, stage.Sound) ∧
    machines.Pairwise Machine.Grows ∧
    ((history.filterMap Stage.opened).Nodup ∧
      (history.filterMap Stage.opened).map ScopeId.index =
        List.range' 1 (history.filterMap Stage.opened).length) ∧
    ∀ outer scope condition body last m,
      .started outer (.loop scope condition body last) m ∈ history → body.isBlock := by
  intro session history machines
  obtain ⟨hstore, hsize⟩ := libraryStore_wellFormed natives
  have halong : Along session.machine history (session.ran sources).machine :=
    along_history hstore sources
  have hturn := (inTurn_history session sources).filterMap_opened
  have hone : session.machine.store.scopes.size = 1 := hsize
  rw [hone] at hturn
  have hlength := congrArg List.length hturn
  rw [List.length_map, List.length_range'] at hlength
  rw [← hlength] at hturn
  refine ⟨fun m hm => ?_, fun stage hstage => (halong.at_stage hstage).2, halong.pairwise,
    ⟨?_, hturn⟩, fun outer scope condition body last m hstage => ?_⟩
  · have hwell : m.store.WellFormed := by
      rcases List.mem_cons.1 hm with rfl | hm
      · exact hstore
      · obtain ⟨stage, hstage, rfl⟩ := List.mem_map.1 hm
        exact (halong.at_stage hstage).1.wellFormed
    exact ⟨hwell, fun _ => hwell.exists_outwards, fun _ _ => hwell.outer?_eq⟩
  · have hplaces : ((history.filterMap Stage.opened).map ScopeId.index).Nodup :=
      hturn ▸ List.nodup_range'
    exact List.Pairwise.of_map ScopeId.index
      (fun _ _ hne heq => hne (congrArg ScopeId.index heq)) hplaces
  · exact (halong.at_stage hstage).2.2.1.1

/-- A text that declares a function, one that puts it in an array, and one that loops through the
array and calls what is in it, by which the array grows. -/
def growingTexts : List String :=
  ["function f(x) \x7b a.push(x) \x7d", "a = [f]", "for (g in a) \x7b g(g) \x7d"]

/-- The text declares a function that adds to an array what it is called with. -/
theorem parseSource_pushingText : parseSource "function f(x) \x7b a.push(x) \x7d" =
    .ok [.function "f" ["x"]
      [.expr (.methodCall (.name "a" ⟨16, 17, 1, 17⟩) "push" [.name "x" ⟨23, 24, 1, 24⟩]
        ⟨16, 25, 1, 17⟩)] ⟨0, 8, 1, 1⟩] := by
  have htokens : tokenize "function f(x) \x7b a.push(x) \x7d" =
      .ok ⟨[⟨.keyword .function, ⟨0, 8, 1, 1⟩, "function"⟩, ⟨.name "f", ⟨9, 10, 1, 10⟩, "f"⟩,
        ⟨.symbol .openParen, ⟨10, 11, 1, 11⟩, "("⟩, ⟨.name "x", ⟨11, 12, 1, 12⟩, "x"⟩,
        ⟨.symbol .closeParen, ⟨12, 13, 1, 13⟩, ")"⟩,
        ⟨.symbol .openBrace, ⟨14, 15, 1, 15⟩, "\x7b"⟩, ⟨.name "a", ⟨16, 17, 1, 17⟩, "a"⟩,
        ⟨.symbol .dot, ⟨17, 18, 1, 18⟩, "."⟩, ⟨.name "push", ⟨18, 22, 1, 19⟩, "push"⟩,
        ⟨.symbol .openParen, ⟨22, 23, 1, 23⟩, "("⟩, ⟨.name "x", ⟨23, 24, 1, 24⟩, "x"⟩,
        ⟨.symbol .closeParen, ⟨24, 25, 1, 25⟩, ")"⟩,
        ⟨.symbol .closeBrace, ⟨26, 27, 1, 27⟩, "\x7d"⟩], ⟨27, 27, 1, 28⟩⟩ := by
    with_unfolding_all rfl
  refine parseSource_eq_ok.2 ⟨_, htokens, ?_⟩
  cbv

/-- The text puts the function in an array. -/
theorem parseSource_arrayText : parseSource "a = [f]" =
    .ok [.expr (.assign "a" (.array [.name "f" ⟨5, 6, 1, 6⟩] ⟨4, 7, 1, 5⟩) ⟨0, 7, 1, 1⟩)] := by
  have htokens : tokenize "a = [f]" =
      .ok ⟨[⟨.name "a", ⟨0, 1, 1, 1⟩, "a"⟩, ⟨.symbol .assign, ⟨2, 3, 1, 3⟩, "="⟩,
        ⟨.symbol .openBracket, ⟨4, 5, 1, 5⟩, "["⟩, ⟨.name "f", ⟨5, 6, 1, 6⟩, "f"⟩,
        ⟨.symbol .closeBracket, ⟨6, 7, 1, 7⟩, "]"⟩], ⟨7, 7, 1, 8⟩⟩ := by
    with_unfolding_all rfl
  refine parseSource_eq_ok.2 ⟨_, htokens, ?_⟩
  cbv

/-- The text loops through the array and calls what is in it. -/
theorem parseSource_loopText : parseSource "for (g in a) \x7b g(g) \x7d" =
    .ok [.forLoop "g" (.name "a" ⟨10, 11, 1, 11⟩)
      (.block [.expr (.call (.name "g" ⟨15, 16, 1, 16⟩) [.name "g" ⟨17, 18, 1, 18⟩]
        ⟨15, 19, 1, 16⟩)] ⟨13, 14, 1, 14⟩) ⟨0, 3, 1, 1⟩] := by
  have htokens : tokenize "for (g in a) \x7b g(g) \x7d" =
      .ok ⟨[⟨.keyword .forLoop, ⟨0, 3, 1, 1⟩, "for"⟩, ⟨.symbol .openParen, ⟨4, 5, 1, 5⟩, "("⟩,
        ⟨.name "g", ⟨5, 6, 1, 6⟩, "g"⟩, ⟨.keyword .inside, ⟨7, 9, 1, 8⟩, "in"⟩,
        ⟨.name "a", ⟨10, 11, 1, 11⟩, "a"⟩, ⟨.symbol .closeParen, ⟨11, 12, 1, 12⟩, ")"⟩,
        ⟨.symbol .openBrace, ⟨13, 14, 1, 14⟩, "\x7b"⟩, ⟨.name "g", ⟨15, 16, 1, 16⟩, "g"⟩,
        ⟨.symbol .openParen, ⟨16, 17, 1, 17⟩, "("⟩, ⟨.name "g", ⟨17, 18, 1, 18⟩, "g"⟩,
        ⟨.symbol .closeParen, ⟨18, 19, 1, 19⟩, ")"⟩,
        ⟨.symbol .closeBrace, ⟨20, 21, 1, 21⟩, "\x7d"⟩], ⟨21, 21, 1, 22⟩⟩ := by
    with_unfolding_all rfl
  refine parseSource_eq_ok.2 ⟨_, htokens, ?_⟩
  cbv

/-- The round of the loop, the block and the call get one scope each after the outermost one, and
the array has what was put in it. -/
theorem history_wellFormed_growing :
    let session := start [] 8 12 [] .zeros
    let history := session.history growingTexts
    (session.ran growingTexts).machine.store.arrays = #[#[.function ⟨0⟩, .function ⟨0⟩]] ∧
      history.filterMap Stage.opened = [⟨1⟩, ⟨2⟩, ⟨3⟩] ∧
      (history.filterMap Stage.opened).Nodup ∧
      ∀ m ∈ history.map Stage.machine, m.store.WellFormed := by
  intro session history
  obtain ⟨hwell, -, -, hfresh, -⟩ := history_wellFormed [] 8 12 [] .zeros growingTexts
  refine ⟨?_, ?_, hfresh.1, fun m hm => (hwell m (List.mem_cons_of_mem _ hm)).1⟩
  · simp only [session, growingTexts, ran, List.foldl_cons, List.foldl_nil, eval,
      parseSource_pushingText, parseSource_arrayText, parseSource_loopText]
    decide +kernel
  · simp only [history, session, growingTexts, Session.history, stages, eval,
      parseSource_pushingText, parseSource_arrayText, parseSource_loopText]
    decide +kernel

end Session

end QuantumScript
