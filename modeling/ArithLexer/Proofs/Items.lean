import ArithLexer.Proofs.Requests

/-!
# The items of a lexer

Every lexer gives some tokens and then the end or a failure (`Lexer.exists_ends`). Its items are these
tokens, and the failure as the last of them. `Lexer.collect` asks for all items at once, and
`Tokens.next` for one at a time; `Tokens.drain_of_ends` and `Tokens.items_of_ends` say that both come
to the same, and how often the lexer is asked.
-/

namespace ArithLexer

/-- The items of a lexer that gives these tokens and then this result. -/
def itemsOf (tokens : List Token) (last : Result) : List (Except LexFailure Token) :=
  tokens.map .ok ++
    match last with
    | .error failure => [.error failure]
    | .ok _ => []

@[simp] theorem itemsOf_cons (token : Token) (tokens : List Token) (last : Result) :
    itemsOf (token :: tokens) last = .ok token :: itemsOf tokens last := rfl

/-- The item that the result of a request makes. -/
def itemOf? : Result → Option (Except LexFailure Token)
  | .ok (some token) => some (.ok token)
  | .ok none => none
  | .error failure => some (.error failure)

/-- Whether no more items come behind a result. -/
def isLast : Result → Bool
  | .ok (some _) => false
  | .ok none => true
  | .error _ => true

namespace Lexer

variable {S : Type} [LineSource S] {x : Lexer S} {token : Token} {tokens : List Token}
  {last : Result}

/-- `x.Ends tokens last` says that the next requests give the tokens, and the one behind them `last`,
which is no token. -/
structure Ends (x : Lexer S) (tokens : List Token) (last : Result) : Prop where
  gives : x.Gives (tokens.map given ++ [last])
  no_token : ∀ token, last ≠ given token

theorem ends_nil_iff : x.Ends [] last ↔ x.next.result = last ∧ ∀ token, last ≠ given token := by
  constructor
  · rintro ⟨h, hl⟩
    exact ⟨(gives_cons_iff.1 h).1, hl⟩
  · rintro ⟨h, hl⟩
    exact ⟨gives_cons_iff.2 ⟨h, gives_nil _⟩, hl⟩

theorem ends_cons_iff :
    x.Ends (token :: tokens) last ↔ x.next.result = given token ∧ x.next.after.Ends tokens last := by
  constructor
  · rintro ⟨h, hl⟩
    obtain ⟨hr, ht⟩ := gives_cons_iff.1 h
    exact ⟨hr, ht, hl⟩
  · rintro ⟨hr, ht, hl⟩
    exact ⟨gives_cons_iff.2 ⟨hr, ht⟩, hl⟩

/-- The request behind those for the tokens gives the last result. -/
theorem Ends.next_after (h : x.Ends tokens last) : (x.after tokens.length).next.result = last := by
  induction tokens generalizing x with
  | nil => exact (ends_nil_iff.1 h).1
  | cons token tokens ih =>
    obtain ⟨hr, he⟩ := ends_cons_iff.1 h
    rw [List.length_cons, after_succ]
    exact ih he

/-- A lexer ends in one way. -/
theorem Ends.unique {tokens' : List Token} {last' : Result} (h : x.Ends tokens last)
    (h' : x.Ends tokens' last') : tokens = tokens' ∧ last = last' := by
  -- on the one list of tokens, and by cases on the other: a request has one result
  induction tokens generalizing x tokens' with
  | nil =>
    obtain ⟨hr, hl⟩ := ends_nil_iff.1 h
    cases tokens' with
    | nil => exact ⟨rfl, hr.symm.trans (ends_nil_iff.1 h').1⟩
    | cons token' tokens' => exact absurd (hr.symm.trans (ends_cons_iff.1 h').1) (hl token')
  | cons token tokens ih =>
    obtain ⟨hr, he⟩ := ends_cons_iff.1 h
    cases tokens' with
    | nil =>
      obtain ⟨hr', hl'⟩ := ends_nil_iff.1 h'
      exact absurd (hr'.symm.trans hr) (hl' token)
    | cons token' tokens' =>
      obtain ⟨hr', he'⟩ := ends_cons_iff.1 h'
      obtain rfl : token' = token := by simpa [given] using hr'.symm.trans hr
      obtain ⟨rfl, hlast⟩ := ih he he'
      exact ⟨rfl, hlast⟩

/-- No lexer gives tokens for ever. -/
theorem exists_ends (x : Lexer S) : ∃ tokens last, x.Ends tokens last := by
  match h : x.next.result with
  | .ok (some token) =>
    obtain ⟨tokens, last, he⟩ := exists_ends x.next.after
    exact ⟨token :: tokens, last, ends_cons_iff.2 ⟨h, he⟩⟩
  | .ok none => exact ⟨[], .ok none, ends_nil_iff.2 ⟨h, by simp [given]⟩⟩
  | .error failure => exact ⟨[], .error failure, ends_nil_iff.2 ⟨h, by simp [given]⟩⟩
termination_by x
decreasing_by exact less_of_next h

theorem collect_of_ends (h : x.Ends tokens last) (got : List (Except LexFailure Token)) :
    (x.collect got).1 = got.reverse ++ itemsOf tokens last := by
  -- the items are collected in reverse, so those that have been got stand in front
  induction tokens generalizing x got with
  | nil =>
    obtain ⟨hr, hl⟩ := ends_nil_iff.1 h
    rw [collect]
    split
    · next token ht => exact absurd (hr.symm.trans ht) (hl token)
    · next ht => simp [← hr, ht, itemsOf]
    · next failure ht => simp [← hr, ht, itemsOf]
  | cons token tokens ih =>
    obtain ⟨hr, he⟩ := ends_cons_iff.1 h
    rw [collect]
    split
    · next token' ht =>
      obtain rfl : token' = token := by simpa [given] using ht.symm.trans hr
      rw [ih he, itemsOf_cons, List.reverse_cons, List.append_assoc, List.singleton_append]
    · next ht => simp [given, ht] at hr
    · next failure ht => simp [given, ht] at hr

end Lexer

namespace Tokens

variable {S : Type} [LineSource S] {x : Lexer S} {token : Token} {tokens : List Token}
  {last : Result}

/-- The tokens behind the first `n` items. -/
def after (ts : Tokens S) (n : Nat) : Tokens S := (fun us => us.next.2)^[n] ts

theorem after_succ (ts : Tokens S) (n : Nat) : ts.after (n + 1) = ts.next.2.after n := rfl

theorem next_finished (x : Lexer S) : (mk x true).next = (none, mk x true) := rfl

theorem after_finished (x : Lexer S) (n : Nat) : (mk x true).after n = mk x true :=
  Function.iterate_fixed (congrArg Prod.snd (next_finished x)) n

/-- An item is the result of one request. -/
theorem next_eq (x : Lexer S) :
    (mk x false).next = (itemOf? x.next.result, mk x.next.after (isLast x.next.result)) := by
  rw [next, if_neg (by simp)]
  match h : x.next.result with
  | .ok (some token) => simp only [h, itemOf?, isLast]
  | .ok none => simp only [h, itemOf?, isLast]
  | .error failure => simp only [h, itemOf?, isLast]

theorem next_of_token (h : x.next.result = given token) :
    (mk x false).next = (some (.ok token), mk x.next.after false) := by
  rw [next_eq, h]
  rfl

theorem next_of_last (h : x.next.result = last) (hl : ∀ token, last ≠ given token) :
    (mk x false).next = ((itemsOf [] last).head?, mk x.next.after true) := by
  rw [next_eq, h]
  match last with
  | .ok (some token) => exact absurd rfl (hl token)
  | .ok none => rfl
  | .error failure => rfl

/-- The items come one by one, each with one request to the lexer. Behind them there is nothing, and
only the first request that finds nothing is one to the lexer. -/
theorem items_of_ends (h : x.Ends tokens last) (n : Nat) :
    ((mk x false).after n).next.1 = (itemsOf tokens last)[n]? ∧
      ((mk x false).after n).lexer = x.after (min n (tokens.length + 1)) := by
  -- over the tokens and the number of items at once, as each item is one token less
  induction tokens generalizing x n with
  | nil =>
    obtain ⟨hr, hl⟩ := Lexer.ends_nil_iff.1 h
    have hn := next_of_last hr hl
    cases n with
    | zero => exact ⟨(congrArg Prod.fst hn).trans List.head?_eq_getElem?, rfl⟩
    | succ n =>
      -- from here on the lexer is the one that has given its last result
      rw [after_succ, hn, after_finished, next_finished]
      refine ⟨?_, ?_⟩
      · cases last <;> rfl
      · simp
        rfl
  | cons token tokens ih =>
    obtain ⟨hr, he⟩ := Lexer.ends_cons_iff.1 h
    have hn := next_of_token hr
    cases n with
    | zero => exact ⟨congrArg Prod.fst hn, rfl⟩
    | succ n =>
      obtain ⟨hi, hx⟩ := ih he n
      rw [after_succ, hn, hi, hx, List.length_cons, Nat.add_min_add_right, Lexer.after_succ]
      exact ⟨rfl, rfl⟩

theorem drain_of_ends (h : x.Ends tokens last) : (mk x false).drain.1 = itemsOf tokens last := by
  rw [drain, if_neg (by simp)]
  exact x.collect_of_ends h []

end Tokens
end ArithLexer
