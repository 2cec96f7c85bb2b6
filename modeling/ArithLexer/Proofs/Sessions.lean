import ArithLexer.Proofs.Items
import ArithLexer.Proofs.Sources

/-!
# Lexers in use

Whoever has a lexer can ask it for tokens, ask where it stands, and at some point take the tokens from
it and ask for these. `Session.observe` says what is seen of a lexer by such operations, and how often
its source is asked for them. Over sources that answer alike nothing different is ever seen
(`Session.observe_eq`), and the tokens end in the same way (`Lexer.Ends.of_follows`).
-/

namespace ArithLexer

/-- What can be done with a lexer. -/
inductive Operation where
  /-- Ask for the next token; once the tokens have been taken, for the next of them. -/
  | next
  | position
  /-- Take the tokens from the lexer, which can then no longer be asked itself. -/
  | tokens
deriving DecidableEq, Repr

/-- What an operation shows. -/
inductive Observation where
  | result (result : Result)
  | item (item : Option (Except LexFailure Token))
  | position (position : Coordinate)
  | nothing

/-- A lexer in use. -/
inductive Session (S : Type) where
  | lexer (lexer : Lexer S)
  | tokens (tokens : Tokens S)

namespace Session

section
variable {S : Type}

def lexerOf : Session S → Lexer S
  | lexer x => x
  | tokens ts => ts.lexer

/-- How often the source has been asked. -/
def pulls (z : Session (Counted S)) : Nat := z.lexerOf.cursor.source.pulls

/-- A lexer over a source that has not been asked. -/
def ofSource (source : S) : Session (Counted S) := lexer (.ofSource ⟨source, 0⟩)

variable [LineSource S]

/-- What an operation shows, and what it leaves. -/
def perform : Session S → Operation → Observation × Session S
  | lexer x, .next => (.result x.next.result, lexer x.next.after)
  | lexer x, .position => (.position x.position, lexer x)
  | lexer x, .tokens => (.nothing, tokens ⟨x, false⟩)
  | tokens ts, .next => (.item ts.next.1, tokens ts.next.2)
  | tokens ts, .position => (.nothing, tokens ts)
  | tokens ts, .tokens => (.nothing, tokens ts)

/-- What operations show one after the other, each with how often the source has been asked by then. -/
def observe (z : Session (Counted S)) : List Operation → List (Observation × Nat)
  | [] => []
  | operation :: operations =>
    ((z.perform operation).1, (z.perform operation).2.pulls) ::
      (z.perform operation).2.observe operations

end

/-! ### Sessions over sources that answer alike -/

variable {S T : Type} {R : S → T → Prop}

/-- `Agree R z w` says that the lexers of two sessions stand at the same place of sources that are
related by `R`. -/
inductive Agree (R : S → T → Prop) : Session S → Session T → Prop
  | lexer {x : Lexer S} {y : Lexer T} : x.Follows R 0 True y → Agree R (lexer x) (lexer y)
  | tokens {x : Lexer S} {y : Lexer T} {finished : Bool} : x.Follows R 0 True y →
      Agree R (tokens ⟨x, finished⟩) (tokens ⟨y, finished⟩)

theorem Agree.pulls_eq {R : Counted S → Counted T → Prop} (hR : ∀ s t, R s t → s.pulls = t.pulls)
    {z : Session (Counted S)} {w : Session (Counted T)} (h : Agree R z w) : w.pulls = z.pulls := by
  cases h with
  | lexer h => exact (hR _ _ h.cursor.source).symm
  | tokens h => exact (hR _ _ h.cursor.source).symm

variable [LineSource S] [LineSource T]

theorem Agree.perform (hR : Answering R) {z : Session S} {w : Session T} (h : Agree R z w)
    (operation : Operation) : (w.perform operation).1 = (z.perform operation).1 ∧
      Agree R (z.perform operation).2 (w.perform operation).2 := by
  cases h with
  | @lexer x y h =>
    cases operation with
    | next =>
      obtain ⟨hr, ha⟩ := h.next hR
      rw [Result.below_zero] at hr
      exact ⟨congrArg Observation.result hr, .lexer ha⟩
    | position => exact ⟨congrArg Observation.position h.position_eq, .lexer h⟩
    -- tokens that are finished do not ask the lexer any more
    | tokens => exact ⟨rfl, .tokens h⟩
  | @tokens x y finished h =>
    cases operation with
    | next =>
      cases finished with
      | true => exact ⟨rfl, .tokens h⟩
      | false =>
        obtain ⟨hr, ha⟩ := h.next hR
        rw [Result.below_zero] at hr
        rw [Session.perform, Session.perform, Tokens.next_eq, Tokens.next_eq, hr]
        exact ⟨rfl, .tokens ha⟩
    | position => exact ⟨rfl, .tokens h⟩
    | tokens => exact ⟨rfl, .tokens h⟩

/-- Over sources that answer alike nothing different is seen, whatever is done. -/
theorem observe_eq (hR : Answering R) {s : S} {t : T} (h : R s t) (operations : List Operation) :
    (ofSource t).observe operations = (ofSource s).observe operations := by
  have hcount := hR.counted
  have hagree : Agree (fun (s : Counted S) (t : Counted T) => s.pulls = t.pulls ∧ R s.source t.source)
      (ofSource s) (ofSource t) := .lexer (Lexer.follows_ofSource ⟨rfl, h⟩ True)
  -- over all sessions that agree, as every operation leaves other ones
  generalize ofSource s = z at hagree
  generalize ofSource t = w at hagree
  induction operations generalizing z w with
  | nil => rfl
  | cons operation operations ih =>
    obtain ⟨ho, ha⟩ := hagree.perform hcount operation
    rw [observe, observe, ho, ha.pulls_eq fun _ _ h => h.1, ih _ _ ha]

end Session

/-- Lexers over sources that answer alike give the same tokens, and the same result behind them. -/
theorem Lexer.Ends.of_follows {S T : Type} [LineSource S] [LineSource T] {R : S → T → Prop}
    (hR : Answering R) {P : Prop} {x : Lexer S} {y : Lexer T} (h : x.Follows R 0 P y)
    {tokens : List Token} {last : Result} (hx : x.Ends tokens last) : y.Ends tokens last := by
  refine ⟨?_, hx.no_token⟩
  rw [Gives, h.results hR, Result.map_below_zero]
  exact hx.gives

end ArithLexer
