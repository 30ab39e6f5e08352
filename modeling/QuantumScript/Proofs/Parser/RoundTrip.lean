import QuantumScript.Proofs.Grammar.Render
import QuantumScript.Proofs.Parser.StmtSound

/-!
# Reading back what was written

Whatever is read is well shaped, and a well-shaped program that is written down, with as many
parentheses as one likes, is read back as it was.
-/

namespace QuantumScript

open Grammar

variable {tokens : Tokens} {program : Program}

/-- Every program that is read is well shaped. -/
theorem Program.wellShaped_of_parse (h : parse tokens = .ok program) : program.WellShaped :=
  (Parser.parse_eq_ok.1 h).wellShaped

/-- Statements with separators between them do not run into each other. -/
theorem Grammar.SpellsProgram.stops {ts : List Token} (h : SpellsProgram Separated program ts) :
    SpellsProgram Stmt.StopsAt program ts := by
  obtain ⟨lead, rest, hlead, hs, rfl⟩ := h
  exact ⟨lead, rest, hlead, hs.stops, rfl⟩

/-- What writes a program down is read as that program, places aside. -/
theorem Program.Renders.parse {ts : List Token} (h : program.Renders ts) (ending : Span) :
    ∃ read, QuantumScript.parse ⟨ts, ending⟩ = .ok read ∧ read.bare = program.bare := by
  obtain ⟨read, hb, hs⟩ := h
  exact ⟨read, Parser.parse_eq_ok.2 hs.stops, hb⟩

/-- What is read is well shaped. Every well-shaped program can be written down, and every way of
writing it down is read back as the same program, places aside. -/
theorem parse_roundTrip :
    (∀ tokens program, parse tokens = .ok program → program.WellShaped) ∧
      ∀ program : Program, program.WellShaped →
        (∃ ts, program.Renders ts) ∧
          ∀ ts ending, program.Renders ts →
            ∃ read, parse ⟨ts, ending⟩ = .ok read ∧ read.bare = program.bare :=
  ⟨fun _ _ h => Program.wellShaped_of_parse h,
    fun _ h => ⟨Program.exists_renders h, fun _ ending hr => hr.parse ending⟩⟩

/-- The program `a * (b + c)` is read back from its tokens, and what is read is well shaped. -/
theorem parse_roundTrip_product :
    ∃ read, parse ⟨[word (.name "a"), word (.symbol .star), word (.symbol .openParen),
        word (.name "b"), word (.symbol .plus), word (.name "c"), word (.symbol .closeParen)],
        .anywhere⟩ = .ok read ∧
      read.bare = [.expr (.binary .mul (.name "a" .anywhere)
        (.binary .add (.name "b" .anywhere) (.name "c" .anywhere) .anywhere) .anywhere)] ∧
      read.WellShaped := by
  have hsum : Spells (.one .assignment ((Joint.binary .add).join (.name "b" .anywhere)
      (.name "c" .anywhere))) ([word (.name "b")] ++ word (.symbol .plus) :: [word (.name "c")]) :=
    .joined (by decide) (.atom rfl) rfl (.atom rfl)
  have hproduct : Spells (.one .assignment ((Joint.binary .mul).join (.name "a" .anywhere)
      ((Joint.binary .add).join (.name "b" .anywhere) (.name "c" .anywhere))))
      ([word (.name "a")] ++ word (.symbol .star) :: (word (.symbol .openParen) ::
        ([] ++ (([word (.name "b")] ++ word (.symbol .plus) :: [word (.name "c")]) ++
          ([] ++ [word (.symbol .closeParen)]))))) :=
    .joined (by decide) (.atom rfl) rfl (.paren rfl lineEnds_nil hsum lineEnds_nil rfl)
  have hnone : ∀ s, Separated s ([] ++ []) := by simp [Separated]
  have hbody := SpellsClause.cons (.expr hproduct) (by simp [Separators] : Separators [])
    (hnone _) .nil
  obtain ⟨wellShaped, roundTrip⟩ := parse_roundTrip
  obtain ⟨read, hread, hbare⟩ := (roundTrip [.expr (.binary .mul (.name "a" .anywhere)
    (.binary .add (.name "b" .anywhere) (.name "c" .anywhere) .anywhere) .anywhere)]
    (by simp [Program.WellShaped, Stmt.WellShaped, Expr.WellShaped])).2 _ .anywhere
    ⟨_, rfl, [], _, by simp [Separators], hbody, rfl⟩
  exact ⟨read, hread, hbare, wellShaped _ _ hread⟩

end QuantumScript
