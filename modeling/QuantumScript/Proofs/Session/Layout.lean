import QuantumScript.Proofs.Parser.Failure
import QuantumScript.Proofs.Session.Join

/-!
# The layout of a text has no part in what it does

Two texts may have the same kinds of tokens and yet differ in blanks, in comments and in how strings
and numbers are spelled. They are read as programs that differ in places only, or reading them fails
at the same token, and in a session both do the same, places aside (`Session.eval_layout`).
-/

namespace QuantumScript

/-- A text whose tokens are known is read as they are. -/
theorem parseSource_of_tokenize {s : String} {tokens : Tokens} (h : tokenize s = .ok tokens) :
    parseSource s = parse tokens := by
  rw [parseSource, h]
  rfl

namespace Session

variable {a b : Session}

/-- Two texts did the same: they ended in the same way, with the same value if they have one, and
left the same session. Only places may differ. -/
structure Alike (x y : Outcome Value × Session) : Prop where
  /-- They ended in the same way. -/
  outcome : x.1.bare = y.1.bare
  /-- They showed the same and left the same lines of input. -/
  console : x.2.machine.console = y.2.machine.console
  /-- They left the same names bound to the same values. -/
  bindings : x.2.bindings = y.2.bindings
  /-- What the values name is the same, places in functions aside. -/
  session : x.2.Same y.2

/-- Sessions that are the same have shown the same and have the same input left. -/
theorem Same.console_eq (h : a.Same b) : a.machine.console = b.machine.console := by
  have hbare : a.machine.bare.console = b.machine.bare.console := by rw [h.machine_eq]
  exact hbare

/-- Sessions that are the same bind the same names to the same values. -/
theorem Same.bindings_eq (h : a.Same b) : a.bindings = b.bindings := by
  have hbare : a.machine.bare.store.scopes = b.machine.bare.store.scopes := by
    rw [h.machine_eq]
  have hscopes : a.machine.store.scopes = b.machine.store.scopes := hbare
  unfold Session.bindings Store.names Store.get? Store.scope?
  simp only [hscopes]

/-- What ended in the same way and left the same session is alike. -/
theorem Alike.of_same {x y : Outcome Value × Session} (houtcome : x.1.bare = y.1.bare)
    (h : x.2.Same y.2) : Alike x y :=
  ⟨houtcome, h.console_eq, h.bindings_eq, h⟩

/-- Texts that are read as programs that differ in places only do the same. -/
theorem eval_alike_of_same {s t : String} {p q : Program} (hp : parseSource s = .ok p)
    (hq : parseSource t = .ok q) (hpq : p.Same q) (hab : a.Same b) :
    Alike (a.eval s) (b.eval t) := by
  rw [eval_eq_run hp, eval_eq_run hq]
  obtain ⟨houtcome, hleft⟩ := run_same hab hpq
  exact .of_same houtcome.symm hleft

/-- Texts that cannot be read for the same cause do the same: nothing but to report it. -/
theorem eval_alike_of_error {s t : String} {cause : Cause} {span span' : Span}
    (hs : parseSource s = .error ⟨cause, some span⟩)
    (ht : parseSource t = .error ⟨cause, some span'⟩) (hab : a.Same b) :
    Alike (a.eval s) (b.eval t) := by
  rw [eval, eval, hs, ht]
  exact .of_same rfl hab

/-- Texts whose tokens have the same kinds are read as programs that differ in places only, or fail
at the same token for the same cause; and in sessions that are the same they do the same. -/
theorem eval_layout {s t : String} {tokens tokens' : Tokens} (hs : tokenize s = .ok tokens)
    (ht : tokenize t = .ok tokens') (hkinds : Token.SameKinds tokens.items tokens'.items)
    (hab : a.Same b) :
    ((∃ p q, parse tokens = .ok p ∧ parse tokens' = .ok q ∧ p.Same q) ∨
      ∃ i cause, tokens.FailsAt i cause ∧ tokens'.FailsAt i cause) ∧
    Alike (a.eval s) (b.eval t) := by
  have hparse := parseSource_of_tokenize hs
  have hparse' := parseSource_of_tokenize ht
  have hread := parse_sameKinds_at hkinds
  refine ⟨hread, ?_⟩
  rcases hread with ⟨p, q, hp, hq, hpq⟩ | ⟨i, cause, hfails, hfails'⟩
  · exact eval_alike_of_same (hparse.trans hp) (hparse'.trans hq) hpq hab
  · exact eval_alike_of_error (hparse.trans hfails.reports) (hparse'.trans hfails'.reports) hab

/-- The tokens of `x='a\t'`. -/
def closeTokens : Tokens :=
  ⟨[⟨.name "x", ⟨0, 1, 1, 1⟩, "x"⟩, ⟨.symbol .assign, ⟨1, 2, 1, 2⟩, "="⟩,
    ⟨.text "a\t", ⟨2, 7, 1, 3⟩, "'a\\t'"⟩], ⟨7, 7, 1, 8⟩⟩

/-- The tokens of `x = "a<tab>" # wide`. -/
def wideTokens : Tokens :=
  ⟨[⟨.name "x", ⟨0, 1, 1, 1⟩, "x"⟩, ⟨.symbol .assign, ⟨2, 3, 1, 3⟩, "="⟩,
    ⟨.text "a\t", ⟨4, 8, 1, 5⟩, "\"a\t\""⟩], ⟨15, 15, 1, 16⟩⟩

/-- Blanks, a comment and another spelling of a string make no difference to an assignment. -/
theorem eval_layout_assignment :
    tokenize "x='a\\t'" = .ok closeTokens ∧ tokenize "x = \"a\t\" # wide" = .ok wideTokens ∧
      Alike ((start [] 8 8 [] .zeros).eval "x='a\\t'")
        ((start [] 8 8 [] .zeros).eval "x = \"a\t\" # wide") := by
  have hclose : tokenize "x='a\\t'" = .ok closeTokens := by
    with_unfolding_all rfl
  have hwide : tokenize "x = \"a\t\" # wide" = .ok wideTokens := by
    with_unfolding_all rfl
  exact ⟨hclose, hwide, (eval_layout hclose hwide rfl (.refl _)).2⟩

end Session

end QuantumScript
