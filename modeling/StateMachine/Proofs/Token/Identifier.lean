import StateMachine.Proofs.Text.Identifier
import StateMachine.Proofs.Text.Location
import StateMachine.Proofs.Token.Scan

/-!
Identifiers as the scanner finds them. A text is an identifier exactly if the scanner finds that one
name in it and nothing else (`Identifier.isValid_iff_scan`), so what the characters say of a name
and what the scanner says of it agree. Both agree on what any text is repaired to
(`Identifier.repair_exact`).
-/

set_option autoImplicit false

namespace StateMachine.Identifier

theorem newline_notMem {name : String} (h : isValid name) : '\n' ∉ name.toList :=
  fun hmem ↦ absurd (isPart_of_isValid h '\n' hmem) (by decide)

/-- The place behind an identifier that a text starts with. -/
theorem start_after {name : String} (h : isValid name) :
    Location.start.after name.toList = ⟨1, 1 + name.length⟩ := by
  rw [Location.after_of_notMem _ (newline_notMem h), String.length_toList]
  rfl

/-- A text is an identifier exactly if it is scanned as that one name. -/
theorem isValid_iff_scan {name : String} :
    isValid name ↔
      TokenStream.scan name = .ok ⟨[⟨.identifier name, .start⟩], ⟨1, 1 + name.length⟩⟩ := by
  constructor
  · intro h
    have hpiece : IsPiece (some (.identifier name)) name.toList [] :=
      .lexeme (l := .identifier name) h fun _ ↦ Text.stops_nil
    have hscan := TokenStream.scanFrom_of_isPiece hpiece .start
    rw [List.append_nil, TokenStream.scanFrom, start_after h] at hscan
    exact hscan
  · intro h
    exact namesValid_of_scan h name List.mem_cons_self

/-- Any text is repaired to an identifier, and so once and for all; only identifiers are left as
they are. The name has the characters of the text, each kept or replaced, and one more underscore in
front if they need one. It is scanned as that name and nothing else. -/
theorem repair_exact (s : String) :
    isValid (repair s) ∧ repair (repair s) = repair s ∧ (repair s = s ↔ isValid s) ∧
      (∀ name, repair s = name ↔ Repairs s name) ∧
      TokenStream.all <$> TokenStream.scan (repair s) =
        .ok [⟨.identifier (repair s), ⟨1, 1⟩⟩, ⟨.endOfFile, ⟨1, 1 + (repair s).length⟩⟩] := by
  have hvalid := isValid_repair s
  have hscan := isValid_iff_scan.mp hvalid
  refine ⟨hvalid, repair_eq_self_iff.mpr hvalid, repair_eq_self_iff, fun _ ↦ repair_eq_iff, ?_⟩
  rw [hscan]
  rfl

end StateMachine.Identifier
