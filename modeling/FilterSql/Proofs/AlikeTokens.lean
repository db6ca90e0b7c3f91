import FilterSql.Proofs.AlikePhrases
import FilterSql.Proofs.InStep

/-!
# Reading alike tokens

Two runs of tokens with the same kinds, and with texts that differ in case only, are read in step,
whatever else is known of them. What is known of two runs that are compared token by token is then
known of their trees.

## Main statements

* `correspond_like`: alike runs are read in step.
* `Expr.ofTokens_alike`: two alike runs are read as alike trees, or fail in the same way.
-/

namespace FilterSql.Filter

/-- The error without the words that it quotes from the filter. -/
def SyntaxError.outline : SyntaxError → SyntaxError
  | .unexpectedToken _ => .unexpectedToken ""
  | .failedToParse => .failedToParse
  | .tooDeep limit => .tooDeep limit

theorem SyntaxError.Alike.outline_eq {word : String → String → Prop} {e e' : SyntaxError}
    (h : e.Alike word e') : e'.outline = e.outline := by
  cases h <;> rfl

/-- Nothing but the kinds of tokens and the words in any case is needed to read in step. -/
theorem correspond_like {π π' : Type} [Place π] [Place π'] :
    Correspond (fun _ _ => True) (fun _ _ => True)
      (List.Forall₂ (Token.Like : Token π → Token π' → Prop)) where
  nil related := by
    cases related
    rfl
  cons related := by
    cases related with
    | cons like others => exact ⟨_, _, rfl, like, trivial, others⟩
  text _ _ := trivial

/-- Runs that are compared token by token are read as alike trees, or fail in the same way. -/
theorem Expr.ofTokens_alike {ts ts' : List (Token Gap)}
    {R : Token Gap → Token Gap → Option (Token Gap) → Prop}
    {leaf name text : String → String → Prop}
    (h : Comparison R leaf name text) (compared : Compared R none ts ts') :
    SameOutcome (fun _ _ => True) (Alike leaf name text) (ofTokens ts) (ofTokens ts') := by
  have like : List.Forall₂ Token.Like ts ts' :=
    compared.forall₂.imp fun _ _ ⟨_, related⟩ => ⟨h.kind related, h.word related⟩
  have outcome := ofTokens_inStep correspond_like like
  rcases ran : ofTokens ts with err | e <;> rw [ran] at outcome
  · obtain ⟨err', ran', same⟩ := outcome.of_error
    rw [ran']
    exact .error same
  · obtain ⟨e', ran', -⟩ := outcome.of_ok
    have phrase := (ofTokens_eq_ok_iff.1 ran).1
    obtain ⟨e'', phrase', alike⟩ := phrase.exists_alike h closes_of_mem_none compared
    rw [ran', (ofTokens_eq_ok_iff.1 ran').1.unique phrase']
    exact .ok alike

end FilterSql.Filter
