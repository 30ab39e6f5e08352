import QuantumScript.Proofs.Parser.StmtAlike
import QuantumScript.Proofs.Parser.StmtSound
import QuantumScript.Proofs.Token.Join

/-!
# Programs joined by a line end

No statement goes on behind a line end, and the `else` of a condition cannot start a program. So the
tokens of two programs with a line end between them are read as the statements of the first and
those of the second (`parse_join`), and the same holds for texts, places of the second aside
(`parseSource_join`).
-/

namespace QuantumScript

namespace Grammar

variable {p q : Program} {ts us : List Token}

/-- Separators before statements may stand behind every statement. -/
theorem ends_separators {lead : List Token} (hl : Separators lead) (hne : lead ≠ [])
    (h : SpellsClause Stmt.StopsAt (.body q) us) : Ends (lead ++ us) := by
  refine ⟨?_, noElse_separators hl fun t ht => ?_⟩
  · cases lead with
    | nil => exact absurd rfl hne
    | cons t lead =>
      rintro _ ⟨⟩
      simp [Parser.endsStatement, hl t (by simp)]
  · obtain ⟨hsep, -, helse⟩ := not_of_startsStmt (h.body_starts t ht)
    simp only [Token.isSeparator, Bool.or_eq_false_iff] at hsep
    exact ⟨helse, hsep.1⟩

/-- Statements and others after separators are spelled one after the other. -/
theorem SpellsClause.append {lead : List Token} (hp : SpellsClause Stmt.StopsAt (.body p) ts)
    (hne : p ≠ []) (hl : Separators lead) (hlead : lead ≠ [])
    (hq : SpellsClause Stmt.StopsAt (.body q) us) :
    SpellsClause Stmt.StopsAt (.body (p ++ q)) (ts ++ (lead ++ us)) := by
  have hends := ends_separators hl hlead hq
  -- Only behind the last statement do the separators and the others come in.
  induction p generalizing ts with
  | nil => exact absurd rfl hne
  | cons s p ih =>
    cases hp with
    | @cons _ _ first between rest hs hb ends others =>
      have hstop : s.StopsAt (between ++ rest ++ (lead ++ us)) := stopsAt_append ends hends
      cases p with
      | nil =>
        cases others with
        | nil =>
          have hb' : Separators (between ++ lead) := by
            intro t ht
            rcases List.mem_append.1 ht with ht | ht
            · exact hb t ht
            · exact hl t ht
          have hts : first ++ (between ++ []) ++ (lead ++ us) =
              first ++ (between ++ lead ++ us) := by simp
          rw [hts]
          refine .cons hs hb' ?_ hq
          simpa using hstop
      | cons next p =>
        have hts : first ++ (between ++ rest) ++ (lead ++ us) =
            first ++ (between ++ (rest ++ (lead ++ us))) := by simp
        rw [hts]
        refine .cons hs hb ?_ (ih others (by simp))
        simpa using hstop

/-- Programs with a line end between them are spelled one after the other. -/
theorem SpellsProgram.join {line : Token} (hline : line.kind = .newline)
    (hp : SpellsProgram Stmt.StopsAt p ts) (hq : SpellsProgram Stmt.StopsAt q us) :
    SpellsProgram Stmt.StopsAt (p ++ q) (ts ++ line :: us) := by
  obtain ⟨lead, first, hl, hs, rfl⟩ := hp
  obtain ⟨lead', second, hl', hs', rfl⟩ := hq
  have hmid : Separators (line :: lead') := by
    intro t ht
    rcases List.mem_cons.1 ht with rfl | ht
    · simp [Token.isSeparator, Token.isNewline, hline]
    · exact hl' t ht
  cases p with
  | nil =>
    -- Without statements before it, the line end is one more separator in front.
    cases hs with
    | nil =>
      refine ⟨lead ++ line :: lead', second, fun t ht => ?_, hs', by simp⟩
      rcases List.mem_append.1 ht with ht | ht
      · exact hl t ht
      · exact hmid t ht
  | cons s p =>
    have hjoined := hs.append (by simp) hmid (by simp) hs'
    exact ⟨lead, first ++ (line :: lead' ++ second), hl, hjoined, by simp⟩

end Grammar

/-- Programs with a line end between their tokens are read one after the other. -/
theorem parse_join {first second : Tokens} {line : Token} {p q : Program} (ending : Span)
    (hp : parse first = .ok p) (hline : line.kind = .newline) (hq : parse second = .ok q) :
    parse ⟨first.items ++ line :: second.items, ending⟩ = .ok (p ++ q) :=
  Parser.parse_eq_ok.2
    (Grammar.SpellsProgram.join hline (Parser.parse_eq_ok.1 hp) (Parser.parse_eq_ok.1 hq))

/-- A text is read as a program when its tokens are. -/
theorem parseSource_eq_ok {source : String} {p : Program} :
    parseSource source = .ok p ↔ ∃ tokens, tokenize source = .ok tokens ∧ parse tokens = .ok p := by
  have hbind : parseSource source = (tokenize source).bind parse := rfl
  rw [hbind]
  cases tokenize source with
  | error fault =>
    refine ⟨nofun, ?_⟩
    rintro ⟨_, h, -⟩
    cases h
  | ok tokens =>
    refine ⟨fun h => ⟨tokens, rfl, h⟩, ?_⟩
    rintro ⟨_, h, hp⟩
    cases h
    exact hp

/-- Texts with a line end between them are read as the program of the first and that of the second,
places in the second aside. -/
theorem parseSource_join {s t : String} {p q : Program} (hp : parseSource s = .ok p)
    (hq : parseSource t = .ok q) :
    ∃ q', parseSource (s ++ "\n" ++ t) = .ok (p ++ q') ∧ q.Same q' := by
  obtain ⟨first, hs, hp⟩ := parseSource_eq_ok.1 hp
  obtain ⟨second, ht, hq⟩ := parseSource_eq_ok.1 hq
  obtain ⟨line, moved, ending, hline, hwords, hjoined⟩ := Token.tokenize_join hs ht
  -- The second text is read further on, where its tokens have the same kinds.
  have hkinds : Token.SameKinds second.items (Tokens.mk moved ending).items := hwords.sameKinds
  rcases parse_sameKinds hkinds with ⟨_, q', hq₁, hq', hsame⟩ | ⟨fault, _, hfault, -⟩
  · cases hq.symm.trans hq₁
    exact ⟨q', parseSource_eq_ok.2 ⟨_, hjoined, parse_join ending hp hline hq'⟩, hsame⟩
  · cases hq.symm.trans hfault

end QuantumScript
