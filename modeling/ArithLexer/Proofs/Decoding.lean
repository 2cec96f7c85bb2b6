import ArithLexer.Host.Basic
import ArithLexer.Proofs.Course
import ArithLexer.Proofs.JsonText
import ArithLexer.Proofs.LimitedSink

/-!
# Reading tokens back

What is written of tokens can be read back, in either format. The output is cut at its line feeds, of
which each token has one, and a line is read by what it begins with: a number up to where its digits
end, an operator as a JSON string. The debug format quotes by other rules than JSON, but on operator
characters both do the same (`quoteString_of_operators`), so one reader is enough.

The decoder is `TokenFormat.decode`, and the main statement is `output_decodable`: in consequence, runs
that have written the same have had the same tokens.
-/

namespace ArithLexer

open Text (pieces)

/-! ### The decoder -/

/-- What stands on a line in front of the value of a token and behind it. -/
structure Frame where
  opening : String
  closing : String

def Frame.line (f : Frame) (text : String) : String := f.opening ++ text ++ f.closing ++ "\n"

/-- Reads what stands in a frame, with nothing else on the line. -/
def Frame.read? {α : Type} (f : Frame) (read : Json.Reader α) (cs : List Char) : Option α :=
  match Json.expect f.opening.toList cs with
  | .error _ => none
  | .ok rest =>
    match read rest with
    | .error _ => none
    | .ok (a, rest) => if rest = f.closing.toList ++ ['\n'] then some a else none

/-- Reads the digits at the head of a text as a number. -/
def readNumeral : Json.Reader Nat := fun cs =>
  .ok (numeralValue (cs.takeWhile isDigit), cs.dropWhile isDigit)

/-- Reads a JSON string from its opening quotation mark on. -/
def readQuoted : Json.Reader String := fun cs =>
  match Json.expect ['"'] cs with
  | .error fault => .error fault
  | .ok rest => Json.readString rest

namespace TokenFormat

def numberFrame : TokenFormat → Frame
  | debug => ⟨"Number(", ")"⟩
  | json => ⟨"\x7b\"tag\":\"number\",\"value\":", "\x7d"⟩

def operatorFrame : TokenFormat → Frame
  | debug => ⟨"Operator(", ")"⟩
  | json => ⟨"\x7b\"tag\":\"operator\",\"operator\":", "\x7d"⟩

/-- Reads a line, with its line feed, as a token. -/
def decodeLine (format : TokenFormat) (cs : List Char) : Option Token :=
  ((format.numberFrame.read? readNumeral cs).map .number).or
    ((format.operatorFrame.read? readQuoted cs).map .operator)

/-- Reads the output of a run as tokens. -/
def decode (format : TokenFormat) (bytes : List UInt8) : Option (List Token) :=
  (pieces lineFeed bytes).mapM fun piece =>
    (String.fromUTF8? ⟨piece.toArray⟩).bind fun text => format.decodeLine text.toList

/-- Whether a token is told apart from the others in a format. JSON has a spelling for every operator
text, and the debug format one that is read back for those that a lexer can make. -/
def Carries : TokenFormat → Token → Prop
  | json, _ => True
  | debug, .number _ => True
  | debug, .operator text => ∀ c ∈ text.toList, isOperatorChar c = true

end TokenFormat

/-! ### Numbers -/

theorem isDigit_digitChar {d : Nat} (h : d < 10) :
    isDigit d.digitChar = true ∧ digitValue d.digitChar = d := by
  have hall : ∀ n : Fin 10, isDigit (Nat.digitChar n) = true ∧ digitValue (Nat.digitChar n) = n := by
    decide
  exact hall ⟨d, h⟩

/-- The decimal digits of a number are digits with that value. -/
theorem numeral_toDigits (n : Nat) :
    (∀ c ∈ Nat.toDigits 10 n, isDigit c = true) ∧ numeralValue (Nat.toDigits 10 n) = n := by
  induction n using Nat.strongRecOn with
  | ind n ih =>
    rw [Nat.toDigits_eq_if (by decide)]
    split
    -- a single digit, or those of a tenth of the number and one more
    · next hn =>
      obtain ⟨hd, hv⟩ := isDigit_digitChar hn
      exact ⟨List.forall_mem_singleton.2 hd, (numeralValue_singleton _).trans hv⟩
    · next hn =>
      obtain ⟨hd, hv⟩ := isDigit_digitChar (Nat.mod_lt n (by decide : 0 < 10))
      obtain ⟨hds, hvs⟩ := ih (n / 10) (Nat.div_lt_self (by omega) (by decide))
      refine ⟨List.forall_mem_append.2 ⟨hds, List.forall_mem_singleton.2 hd⟩, ?_⟩
      rw [numeralValue_concat, hvs, hv]
      omega

theorem readNumeral_repr (n : Nat) {c : Char} (hc : isDigit c = false) (rest : List Char) :
    readNumeral (n.repr.toList ++ c :: rest) = .ok (n, c :: rest) := by
  obtain ⟨hd, hv⟩ := numeral_toDigits n
  rw [readNumeral, Nat.toList_repr, List.takeWhile_append_of_pos hd, List.dropWhile_append_of_pos hd,
    List.takeWhile_cons_of_neg (by simp [hc]), List.dropWhile_cons_of_neg (by simp [hc]),
    List.append_nil, hv]

/-! ### Operators -/

namespace Json

theorem hexText_hexDigit {n : Nat} (h : n < 0x100) :
    HexText ['0', '0', hexDigit (n / 16), hexDigit n] n := by
  have hzero : HexDigit '0' 0 := ⟨by decide, .inl rfl⟩
  have hdigit : ∀ k, HexDigit (hexDigit k) (k % 16) :=
    fun k => ⟨Nat.mod_lt k (by decide), .inl rfl⟩
  refine ⟨rfl, [0, 0, n / 16 % 16, n % 16],
    .cons hzero (.cons hzero (.cons (hdigit _) (.cons (hdigit n) .nil))), ?_⟩
  simp [Nat.ofDigits_cons]
  omega

theorem spells_escape (c : Char) : Spells (escape c) c := by
  unfold escape
  split_ifs with hquote hslash _ _ _ _ _ hcontrol
  -- the characters with a letter of their own
  iterate 7
    · subst c
      exact .letter (by decide)
  · -- a control character is below U+0100, so one unit is enough, with two zeros in front
    have hunits : List.Forall₂ UnitText
        [['\\', 'u', '0', '0', hexDigit (c.toNat / 16), hexDigit c.toNat]] (utf16 c) := by
      rw [utf16, if_pos (by omega)]
      exact .cons ⟨_, rfl, hexText_hexDigit (by omega)⟩ .nil
    exact .units hunits
  · exact .plain hquote hslash (Nat.not_lt.1 hcontrol)

theorem spellsAll_escape (cs : List Char) : SpellsAll (cs.flatMap escape) cs := by
  induction cs with
  | nil => exact .nil
  | cons c cs ih => exact .cons (spells_escape c) ih

end Json

theorem readQuoted_quote (text : String) (rest : List Char) :
    readQuoted ((Json.quote text).toList ++ rest) = .ok (text, rest) := by
  have hread := Json.readChars_of_spellsAll (Json.spellsAll_escape text.toList) [] rest
  have hquote : (Json.quote text).toList ++ rest =
      ['"'] ++ (text.toList.flatMap Json.escape ++ '"' :: rest) := by
    simp [Json.quote]
  rw [readQuoted, Json.expect_eq_ok_iff.2 hquote.symm]
  simpa [Json.readString] using hread

/-- Operator characters are quoted in the same way for display and for JSON. -/
theorem quoteString_of_operators {text : String} (h : ∀ c ∈ text.toList, isOperatorChar c = true) :
    Text.quoteString text = Json.quote text := by
  -- the operator characters are few, so they are all tried
  have hall : (operatorChars.all fun c => Text.escape '"' c == Json.escape c) = true := by
    decide +kernel
  have hescape : text.toList.flatMap (Text.escape '"') = text.toList.flatMap Json.escape :=
    List.flatMap_congr fun c hc =>
      beq_iff_eq.1 (List.all_eq_true.1 hall c (List.contains_iff_mem.1 (h c hc)))
  rw [Text.quoteString, Text.enclose, hescape, Json.quote]

/-! ### Lines -/

/-- What stands in a frame is read, if the reader of it stops at the closing part. -/
theorem Frame.read?_line {α : Type} {f : Frame} {read : Json.Reader α} {text : String} {a : α}
    (h : read (text.toList ++ (f.closing.toList ++ ['\n'])) =
      .ok (a, f.closing.toList ++ ['\n'])) :
    f.read? read (f.line text).toList = some a := by
  have hline : f.opening.toList ++ (text.toList ++ (f.closing.toList ++ ['\n'])) =
      (f.line text).toList := by
    simp [line]
  rw [read?, Json.expect_eq_ok_iff.2 hline]
  simp only [h, if_pos]

namespace TokenFormat

variable {format : TokenFormat} {token : Token} {tokens : List Token}

theorem line_number (format : TokenFormat) (value : Nat) :
    format.line (.number value) = format.numberFrame.line value.repr := by
  cases format <;> rfl

theorem line_operator {text : String} (h : format.Carries (.operator text)) :
    format.line (.operator text) = format.operatorFrame.line (Json.quote text) := by
  cases format with
  | json => rfl
  | debug =>
    rw [← quoteString_of_operators h]
    rfl

theorem numberFrame_closing (format : TokenFormat) :
    ∃ c, format.numberFrame.closing.toList = [c] ∧ isDigit c = false := by
  cases format with
  | debug => exact ⟨')', by decide, by decide⟩
  | json => exact ⟨'\x7d', by decide, by decide⟩

/-- No line of an operator begins like that of a number. -/
theorem read?_numberFrame (format : TokenFormat) (text : String) :
    format.numberFrame.read? readNumeral (format.operatorFrame.line text).toList = none := by
  have hexpect : ∀ cs, Json.expect format.numberFrame.opening.toList
      (format.operatorFrame.opening.toList ++ cs) = .error .malformed := by
    intro cs
    cases format <;> rfl
  rw [Frame.read?, Frame.line, String.append_assoc, String.append_assoc, String.toList_append,
    hexpect]

theorem decodeLine_line (h : format.Carries token) :
    format.decodeLine (format.line token).toList = some token := by
  cases token with
  | number value =>
    obtain ⟨c, hclosing, hc⟩ := format.numberFrame_closing
    rw [decodeLine, line_number, Frame.read?_line (a := value)]
    · rfl
    · rw [hclosing]
      exact readNumeral_repr value hc ['\n']
  | operator text =>
    -- the frame of a number is tried first, and fails at the tag
    rw [decodeLine, line_operator h, read?_numberFrame, Frame.read?_line (readQuoted_quote text _)]
    rfl

/-- The output for some tokens is read as these tokens. -/
theorem decode_tokenBytes (h : ∀ token ∈ tokens, format.Carries token) :
    format.decode (tokenBytes format tokens) = some tokens := by
  rw [decode, pieces_tokenBytes]
  induction tokens with
  | nil => rfl
  | cons token tokens ih =>
    obtain ⟨htoken, htokens⟩ := List.forall_mem_cons.1 h
    rw [List.map_cons, List.mapM_cons, fromUTF8?_utf8Bytes, ih htokens]
    simp [decodeLine_line htoken]

/-- A token has one line feed, at the end of its line. -/
theorem count_feed_line (format : TokenFormat) (token : Token) :
    (format.line token).toList.count '\n' = 1 ∧ (format.line token).toList.getLast? = some '\n' := by
  rw [format.line_eq, String.toList_append]
  have hfeed : "\n".toList = ['\n'] := by decide
  rw [hfeed, List.count_append, List.count_eq_zero_of_not_mem (format.feed_not_mem_text token),
    List.getLast?_concat]
  exact ⟨rfl, rfl⟩

end TokenFormat

/-! ### Runs -/

section
variable {S : Type} [LineSource S] {s : S}

theorem Lexeme.carries {u : List Char} {token : Token} (h : Lexeme u token) (format : TokenFormat) :
    format.Carries token := by
  cases h with
  | number => cases format <;> trivial
  | operator _ ho =>
    cases format with
    | json => trivial
    | debug =>
      intro c hc
      rw [String.toList_ofList] at hc
      exact ho c hc

theorem Lexer.Ends.carries {n : Nat} {tokens : List Token} {last : Result}
    (h : ((ofSource s).after n).Ends tokens last) (format : TokenFormat) :
    ∀ token ∈ tokens, format.Carries token := by
  induction tokens generalizing n with
  | nil => simp
  | cons token tokens ih =>
    obtain ⟨hr, he⟩ := ends_cons_iff.1 h
    rw [← after_succ'] at he
    -- what a request gives is a lexeme, so an operator has operator characters only
    obtain ⟨u, hu⟩ := lexeme_of_request hr
    exact List.forall_mem_cons.2 ⟨hu.carries format, ih he⟩

/-- A run that succeeds has written all tokens of its source. -/
theorem ends_of_writeTokens {format : TokenFormat} {sink : Sink} {n : Nat}
    (h : (writeTokens format s sink).result = .ok n) :
    ∃ tokens, (Lexer.ofSource s).Ends tokens (.ok none) ∧
      (writeTokens format s sink).sink.written = sink.written ++ tokenBytes format tokens := by
  obtain ⟨tokens, last, he⟩ := (Lexer.ofSource s).exists_ends
  rcases sink.accepts_or_short (tokenBytes format tokens).length with hroom | ⟨room, hr, hlt⟩
  · rw [writeTokens_of_ends format he hroom] at h ⊢
    -- the result is only a number where the run came to the end
    match last, he with
    | .ok none, he => exact ⟨tokens, he, rfl⟩
    | .ok (some token), he => exact absurd rfl (he.no_token token)
    | .error failure, _ => cases h
  · -- the sink would have failed
    have hresult := (writeTokens_of_short format he hr hlt).1
    cases hresult.symm.trans h

end

/-- In either format the output can be read back. The decoder gives back any tokens that the format
carries from what is written of them, and each token has one line feed, its last character. So if two
runs have succeeded in the same format, and what they have written to their sinks is the same, then
their sources have the same tokens. -/
theorem output_decodable (format : TokenFormat) :
    (∀ tokens, (∀ token ∈ tokens, format.Carries token) →
      format.decode (tokenBytes format tokens) = some tokens) ∧
    (∀ token, (format.line token).toList.count '\n' = 1 ∧
      (format.line token).toList.getLast? = some '\n') ∧
    ∀ (S T : Type) [LineSource S] [LineSource T] (s : S) (t : T) (sink sink' : Sink) (n n' : Nat)
      (bytes : List UInt8), (writeTokens format s sink).result = .ok n →
      (writeTokens format t sink').result = .ok n' →
      (writeTokens format s sink).sink.written = sink.written ++ bytes →
      (writeTokens format t sink').sink.written = sink'.written ++ bytes →
      ∃ tokens, format.decode bytes = some tokens ∧ (Lexer.ofSource s).Ends tokens (.ok none) ∧
        (Lexer.ofSource t).Ends tokens (.ok none) := by
  refine ⟨fun tokens h => TokenFormat.decode_tokenBytes h, format.count_feed_line, ?_⟩
  intro S T _ _ s t sink sink' n n' bytes hs ht hbytes hbytes'
  -- what a run has written is decoded as the tokens of its source
  have hread : ∀ {U : Type} [LineSource U] {u : U} {sink : Sink} {n : Nat},
      (writeTokens format u sink).result = .ok n →
      (writeTokens format u sink).sink.written = sink.written ++ bytes →
      ∃ tokens, format.decode bytes = some tokens ∧ (Lexer.ofSource u).Ends tokens (.ok none) := by
    intro U _ u sink n h hw
    obtain ⟨tokens, he, hbytes⟩ := ends_of_writeTokens h
    have heq : bytes = tokenBytes format tokens := by
      have hlist := congrArg Array.toList (hw.symm.trans hbytes)
      simpa using hlist
    exact ⟨tokens, heq ▸ TokenFormat.decode_tokenBytes (he.carries (n := 0) format), he⟩
  obtain ⟨tokens, hd, he⟩ := hread hs hbytes
  obtain ⟨tokens', hd', he'⟩ := hread ht hbytes'
  obtain rfl : tokens = tokens' := Option.some.inj (hd.symm.trans hd')
  exact ⟨tokens, hd, he, he'⟩

/-- A JSON operator may hold whatever ends a string or a line elsewhere, and backslashes are told apart
by their number. Two runs have the same tokens, though their lines are not the same. -/
theorem output_decodable_backslashes :
    TokenFormat.json.decode (tokenBytes .json [.operator "\"\n\\", .number 7]) =
        some [.operator "\"\n\\", .number 7] ∧
      TokenFormat.debug.decode (tokenBytes .debug [.operator "\\\\", .operator "\\"]) =
        some [.operator "\\\\", .operator "\\"] ∧
      ∃ tokens, (Lexer.ofSource (Script.mk [.line "\\ 1"])).Ends tokens (.ok none) ∧
        (Lexer.ofSource (Script.mk [.line "\\", .line "01"])).Ends tokens (.ok none) := by
  have hrun : ∀ s : Script, (Lexer.ofSource s).Ends [.operator "\\", .number 1] (.ok none) →
      (writeTokens .debug s .unlimited).result = .ok 2 ∧
        (writeTokens .debug s .unlimited).sink.written =
          Sink.unlimited.written ++ tokenBytes .debug [.operator "\\", .number 1] := by
    intro s he
    rw [writeTokens_of_ends .debug he (Sink.accepts_unlimited _)]
    exact ⟨rfl, rfl⟩
  -- all that is needed of a source is the course of the requests to a lexer on it
  have hends : ∀ (s : Script) (k : Nat), ((Lexer.ofSource s).course k).1 =
      [given (.operator "\\"), given (.number 1), .ok none] →
      (Lexer.ofSource s).Ends [.operator "\\", .number 1] (.ok none) := by
    intro s k hk
    have hgives := (Lexer.ofSource s).gives_course k
    rw [hk] at hgives
    exact ⟨hgives, by simp [given]⟩
  have hone := hends ⟨[.line "\\ 1"]⟩ 7 (by decide +kernel)
  have htwo := hends ⟨[.line "\\", .line "01"]⟩ 8 (by decide +kernel)
  obtain ⟨hr, hw⟩ := hrun _ hone
  obtain ⟨hr', hw'⟩ := hrun _ htwo
  obtain ⟨tokens, -, he, he'⟩ :=
    (output_decodable .debug).2.2 Script Script _ _ _ _ _ _ _ hr hr' hw hw'
  exact ⟨(output_decodable .json).1 _ (by simp [TokenFormat.Carries]),
    (output_decodable .debug).1 _ (by simp [TokenFormat.Carries]; decide), tokens, he, he'⟩

end ArithLexer
