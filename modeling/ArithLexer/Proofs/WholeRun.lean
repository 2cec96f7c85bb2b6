import ArithLexer.Proofs.Delivery
import ArithLexer.Proofs.Directories
import ArithLexer.Proofs.Filtering

/-!
# A whole run

What a run over a directory in memory shows of its input, whatever bytes that has: the tokens on the
standard output, one line for each, and on the console nothing or the error, with the exit code that
goes with it. The main statement, `run_lex`, is about runs whose settings let only errors through, and
whose standard output accepts what it gets, in parts of any size: what the buffer makes of that is said
by `lexPortions_of_accepting`.

The input may come from a file or from the standard input, which hands it out in portions
(`Directory.Feeds`). Finding the settings only looks at the directory (`looks_findSettings`); opening
the log file may change it, and the input is opened behind that.
-/

namespace ArithLexer

open Text (pieces)

/-! ### Quiet settings -/

namespace Log

theorem not_admits_error (e : Event) : Level.error.admits e.level = false := by
  cases e <;> rfl

/-- A filter whose limits are all the same has this limit for every target. -/
theorem Filter.limit_eq {f : Filter} {level : Level} (ho : f.otherwise = level)
    (he : ∀ e ∈ f.entries, e.2 = level) (target : String) : f.limit target = level := by
  rcases f.limit_cases target with ⟨-, hlimit⟩ | ⟨e, hmem, -, hlimit, -⟩
  · rw [hlimit, ho]
  · rw [hlimit, he e hmem]

/-- Levels that let only errors through, for the lexer as for the rest. -/
structure Levels.Quiet (l : Levels) : Prop where
  overall : l.overall = .error
  lexer : l.forTarget lexerTarget = .error

/-- Quiet levels let no event through. -/
theorem Levels.Quiet.select_eq_nil {l : Levels} (h : l.Quiet) (events : List Event) :
    l.filter.select events = [] := by
  have hlimit : ∀ target, l.filter.limit target = .error := by
    refine Filter.limit_eq h.overall ?_
    simp [filter, h.overall, h.lexer]
  simp [Filter.select, Filter.enables, hlimit, not_admits_error]

end Log

/-! ### The run -/

def Looks {α : Type} (action : StateM Directory α) : Prop := ∀ d, (action.run d).2 = d

theorem looks_pure {α : Type} (a : α) : Looks (pure a) := fun _ => rfl

theorem Looks.bind {α β : Type} {action : StateM Directory α} {f : α → StateM Directory β}
    (h : Looks action) (hf : ∀ a, Looks (f a)) : Looks (action >>= f) := by
  intro d
  have hd : ((f (action.run d).1).run (action.run d).2).2 = (action.run d).2 := hf _ _
  exact hd.trans (h d)

theorem looks_readFile (path : String) : Looks (Directory.host.readFile path) := fun _ => rfl

theorem looks_isFile (path : String) : Looks (Directory.host.isFile path) := by
  refine Looks.bind (fun _ => rfl) fun d => ?_
  split <;> exact looks_pure _

theorem looks_readSettings (path : String) : Looks (readSettings Directory.host path) := by
  refine (looks_readFile path).bind fun content => ?_
  cases content with
  | error cause => exact looks_pure _
  | ok content => dsimp only; split <;> exact looks_pure _

theorem looks_findSettings (named : Option String) : Looks (findSettings Directory.host named) := by
  match named with
  | some path => exact looks_readSettings path
  | none =>
    refine (looks_isFile defaultSettingsPath).bind fun b => ?_
    -- without a name, the default place is looked at first
    cases b with
    | true => exact looks_readSettings defaultSettingsPath
    | false => exact looks_pure _

namespace Directory

def settings (d : Directory) (i : CommandLine.Invocation) : Except SettingsError Settings :=
  ((findSettings host i.config).run d).1.bind fun file => Settings.ofChoices file i.choices

/-- The directory once the log file has been opened, if there is to be one. -/
def withLog (d : Directory) : Option String → Except IoError Directory
  | none => .ok d
  | some path => d.create path

/-- `d.Feeds bytes file` says that the input of a run is `bytes`: the content of the file, or what
the standard input gives, in portions of which none but the last one is empty. -/
inductive Feeds (d : Directory) (bytes : List UInt8) : Option String → Prop
  | standardInput {file : Option String} : file.all isStandardInput = true →
      Stretches.ofSupply d.standardInput = .last bytes → .bytes [] ∉ d.standardInput.dropLast →
      Feeds d bytes file
  | file {path : String} : isStandardInput path = false → d.contentOf path = .ok bytes →
      Feeds d bytes (some path)

variable {d : Directory} {bytes : List UInt8} {file : Option String}
  {output : Device (StateM Directory)}

/-- Where there is no settings file, only the flags count. -/
theorem settings_of_flags (h : ∀ content, d.find defaultSettingsPath ≠ .ok (.file content))
    {i : CommandLine.Invocation} (hi : i.config = none) :
    d.settings i = Settings.ofChoices {} i.choices := by
  have hfile : (host.isFile defaultSettingsPath).run d = (false, d) := by
    match hf : d.find defaultSettingsPath with
    | .error cause => simp [host, hostWith, hf]; rfl
    | .ok .directory => simp [host, hostWith, hf]; rfl
    | .ok (.file content) => exact absurd hf (h content)
  rw [settings, hi, findSettings]
  simp only [StateT.run_bind, hfile]
  rfl

/-- The stream that is opened holds the bytes of the input. -/
theorem Feeds.lexInput (h : d.Feeds bytes file) (output : Device (StateM Directory))
    (format : TokenFormat) : ∃ told portions,
    (lexInput (hostWith output) format file).run d =
        (lexPortions output format told portions).run d ∧
      (ByteStream.ofSupply readCapacity portions).Holds bytes := by
  have hroom : 0 < readCapacity := by decide
  cases h with
  | standardInput hfile hst hfilled =>
    -- no file, or one that stands for the standard input
    have hnone : (file.filter fun path => !isStandardInput path) = none := by
      cases file <;> simp_all
    refine ⟨[.lexingStdin], d.standardInput, ?_, ⟨fun _ => hroom, hfilled⟩, ?_⟩
    · rw [ArithLexer.lexInput, hnone]
      rfl
    · rw [stretches_ofSupply, hst]
  | @file path hpath hcontent =>
    have hsome : ((some path).filter fun path => !isStandardInput path) = some path := by
      simp [hpath]
    -- a file comes as one portion, which may be empty
    have hopen : ((hostWith output).openInput path).run d = (.ok [.bytes bytes], d) := by
      have hfind := contentOf_eq_ok_iff.1 hcontent
      simp [hostWith, hfind]
      rfl
    have hfilled : Portion.bytes [] ∉ [Portion.bytes bytes].dropLast := by simp
    refine ⟨[.lexingFile path], [.bytes bytes], ?_, ⟨fun _ => hroom, hfilled⟩, ?_⟩
    · rw [ArithLexer.lexInput, hsome]
      simp only [StateT.run_bind, hopen]
      rfl
    · rw [stretches_ofSupply]
      simp [Stretches.ofSupply, Stretches.prepend]

/-- The directory after the events of a run have been put into the log file, if there is one. -/
def logged (d : Directory) (r : Report) : Option String → Directory
  | none => d
  | some path => d.extend path (utf8Bytes (Log.fileText r.events))

theorem lexUnder_run {d d' : Directory} {s : Settings} (hl : d.withLog s.logFile = .ok d')
    (file : Option String) :
    (lexUnder (hostWith output) s file).run d =
      let lexed := (lexInput (hostWith output) s.output file).run d'
      (lexed.1.under s, lexed.2.logged (lexed.1.under s) s.logFile) := by
  match hpath : s.logFile with
  | none =>
    rw [hpath] at hl
    cases hl
    rw [lexUnder, hpath]
    rfl
  | some path =>
    rw [hpath] at hl
    have hl : d.create path = .ok d' := hl
    have hopen : ((hostWith output).openLog path).run d = (.ok (), d') := by
      simp [hostWith, hl]
      rfl
    rw [lexUnder, hpath]
    simp only [StateT.run_bind, hopen]
    rfl

/-- The settings do not depend on where the output goes. -/
theorem findSettings_hostWith (output : Device (StateM Directory)) (named : Option String) :
    findSettings (hostWith output) named = findSettings host named :=
  rfl

theorem run_of_parse {d : Directory} {arguments : List String} {i : CommandLine.Invocation}
    {s : Settings} (ha : CommandLine.parse arguments = .ok (.lex i)) (hs : d.settings i = .ok s) :
    (run (hostWith output) arguments).run d =
      Prod.map .ran id ((lexUnder (hostWith output) s i.file).run d) := by
  have hlooks : ((findSettings host i.config).run d).2 = d := looks_findSettings i.config d
  have hcarry : (carryOut (hostWith output) i).run d =
      (lexUnder (hostWith output) s i.file).run d := by
    rw [settings] at hs
    rw [carryOut, findSettings_hostWith, StateT.run_bind]
    -- the settings are looked for first, and that leaves the directory as it is
    generalize (findSettings host i.config).run d = found at hs hlooks
    obtain ⟨file, e⟩ := found
    subst hlooks
    simp only [bind, hs]
  rw [run, ha]
  show Prod.map Outcome.ran id ((carryOut (hostWith output) i).run d) = _
  rw [hcarry]

end Directory

theorem Report.console_under {r : Report} {s : Settings} (h : s.levels.Quiet) :
    (r.under s).console = r.errorText := by
  have hevents : (r.under s).events = [] := h.select_eq_nil r.events
  rw [console, hevents]
  exact String.empty_append

/-- The failure to read a line is that of the first piece of the input that is no text. -/
theorem piece_of_unreadable {bytes : List UInt8} {line : Nat} {cause : IoError}
    (h : (reference (Stretches.last bytes).answers).2 = .error (.unreadable line cause)) :
    cause = .invalidUtf8 ∧ ∃ before bad behind, pieces lineFeed bytes = before ++ bad :: behind ∧
      (∀ piece ∈ before, ∃ text, utf8Bytes text = piece) ∧ (¬ ∃ text, utf8Bytes text = bad) ∧
      line = before.length + 1 := by
  obtain ⟨texts, answers, hanswers, hline⟩ := reference_of_unreadable h
  rw [Stretches.answers, List.map_eq_append_iff] at hanswers
  obtain ⟨before, rest, hpieces, hbefore, hrest⟩ := hanswers
  obtain ⟨bad, behind, rfl, hbad, -⟩ := List.map_eq_cons_iff.1 hrest
  -- the answer for a piece is a line exactly if the piece is the bytes of a text
  have hinvalid : ¬ ∃ text, utf8Bytes text = bad := by
    rintro ⟨text, rfl⟩
    rw [pieceAnswer_utf8Bytes] at hbad
    cases hbad
  rw [pieceAnswer_of_invalid hinvalid] at hbad
  cases hbad
  refine ⟨rfl, before, bad, behind, hpieces, fun piece hp => ?_, hinvalid, ?_⟩
  · by_contra hn
    have hmem : pieceAnswer piece ∈ texts.map Answer.line := hbefore ▸ List.mem_map_of_mem hp
    rw [pieceAnswer_of_invalid hn] at hmem
    simp at hmem
  · have hlength : before.length = texts.length := by simpa using congrArg List.length hbefore
    rw [hline, hlength]

/-- What a run over some bytes shows, under settings that let only errors through, and with a standard
output that accepts everything. That gets one line for each token that a lexer gives of the bytes, in
order. If the lexer comes to the end of the bytes, the exit code is zero and there is nothing on the
console; otherwise it is one, and the console shows the error: the refused character in its line, or the
number of the first line that is no text.

The standard output may take the lines in parts of any size. Whatever it keeps of what it gets, in the
end these lines are behind what it held before, unless the log file is there too. -/
theorem run_lex {d d' : Directory} {arguments : List String} {i : CommandLine.Invocation}
    {s : Settings} {bytes : List UInt8} {output : Device (StateM Directory)}
    (ha : CommandLine.parse arguments = .ok (.lex i))
    (hs : d.settings i = .ok s) (hq : s.levels.Quiet) (hl : d.withLog s.logFile = .ok d')
    (hf : d'.Feeds bytes i.file) (ho : output.Accepting) :
    let after := (run (Directory.hostWith output) arguments).run d
    let outcome := after.1
    ∃ tokens last, (Lexer.ofSource (ByteStream.ofBytes bytes)).Ends tokens last ∧
      outcome.output.toList = tokenBytes s.output tokens ∧
      (∀ holds, output.Keeps holds →
        (∀ path ∈ s.logFile, ∀ d bytes text, holds d text → holds (d.extend path bytes) text) →
        ∀ text, holds d' text → holds after.2 (text ++ tokenBytes s.output tokens)) ∧
      pieces lineFeed outcome.output.toList =
        tokens.map (fun token => utf8Bytes (s.output.line token)) ∧
      match last with
      | .ok _ => outcome.exitCode = 0 ∧ outcome.console = ""
      | .error (.rejected e) => outcome.exitCode = 1 ∧
          outcome.console = "error: " ++ e.message ++ "\n " ++ e.position.line.repr ++ " | " ++
            e.line ++ "\n " ++ String.ofList (List.replicate e.position.line.repr.length ' ') ++
            " | " ++ e.margin ++ "^\n"
      | .error (.unreadable line _) => outcome.exitCode = 1 ∧
          outcome.console = "error: failed to read line " ++ line.repr ++
            ": stream did not contain valid UTF-8\n" ∧
          ∃ before bad behind, pieces lineFeed bytes = before ++ bad :: behind ∧
            (∀ piece ∈ before, ∃ text, utf8Bytes text = piece) ∧
            (¬ ∃ text, utf8Bytes text = bad) ∧ line = before.length + 1 := by
  intro after outcome
  -- the run comes down to what `lexPortions` makes of the portions of the input
  obtain ⟨told, portions, hlexed, hholds⟩ := hf.lexInput output s.output
  obtain ⟨hresult, houtput, hheld⟩ :=
    lexPortions_of_accepting ho s.output told hholds.ends_reference d'
  have hafter : after = _ := Directory.run_of_parse ha hs
  rw [Directory.lexUnder_run hl, hlexed] at hafter
  generalize (lexPortions output s.output told portions).run d' = lexed at *
  obtain ⟨report, d''⟩ := lexed
  have houtcome : outcome = .ran (report.under s) := congrArg Prod.fst hafter
  have hout : outcome.output.toList =
      tokenBytes s.output (reference (Stretches.last bytes).answers).1 := by
    rw [houtcome]
    exact houtput
  refine ⟨_, _, (holds_ofBytes bytes).ends_reference, hout, ?_, hout ▸ pieces_tokenBytes _ _, ?_⟩
  · intro holds hk hlog text ht
    have hd : after.2 = d''.logged (report.under s) s.logFile := congrArg Prod.snd hafter
    have hkept := hheld holds hk text ht
    rw [hd]
    -- the events go into the log file behind everything else
    match hpath : s.logFile with
    | none => exact hkept
    | some path => exact hlog path hpath d'' _ _ hkept
  have hcode : outcome.exitCode = report.exitCode := by
    rw [houtcome]
    rfl
  have hconsole : outcome.console = report.errorText := by
    rw [houtcome]
    exact Report.console_under hq
  -- what is left to say depends only on the result of the lexer
  rw [hcode, hconsole, Report.exitCode, Report.errorText, hresult]
  match hlast : (reference (Stretches.last bytes).answers).2 with
  | .ok _ => exact ⟨rfl, rfl⟩
  | .error (.rejected e) =>
    refine ⟨rfl, ?_⟩
    show "error: " ++ e.render ++ "\n" = _
    apply String.toList_injective
    simp [LexError.render]
  | .error (.unreadable line cause) =>
    obtain ⟨rfl, hpiece⟩ := piece_of_unreadable hlast
    refine ⟨rfl, ?_, hpiece⟩
    show "error: " ++ ("failed to read line " ++ line.repr ++ ": " ++ IoError.invalidUtf8.text) ++
      "\n" = _
    apply String.toList_injective
    simp [IoError.invalidUtf8]

/-- The tokens of the first line are written as JSON, though the second line is no text. The first
portion ends within the first line, and the standard output leads to a file, which gets one byte after
the other. -/
theorem run_lex_unreadable :
    let d : Directory := ⟨[(["out"], .file [])],
      [.bytes [0x31], .bytes [0x2B, 0x0A, 0xFF, 0x0A, 0x32]]⟩
    let after := (run (Directory.hostWith (Directory.bytewise "out")) ["lex", "--output=json"]).run d
    after.1.output.toList = tokenBytes .json [.number 1, .operator "+"] ∧ after.1.exitCode = 1 ∧
      after.1.console =
        "error: failed to read line 2: stream did not contain valid UTF-8\n" ∧
      after.2.contentOf "out" = .ok (tokenBytes .json [.number 1, .operator "+"]) := by
  intro d after
  let i : CommandLine.Invocation := ⟨none, { output := some .json }, none⟩
  have ha : CommandLine.parse ["lex", "--output=json"] = .ok (.lex i) := rfl
  have hfind : d.find defaultSettingsPath = .error Directory.noSuchFile := by decide +kernel
  have hs : d.settings i = .ok { output := .json } :=
    Directory.settings_of_flags (fun _ h => nomatch hfind.symm.trans h) rfl
  have hq : Log.Levels.Quiet {} := ⟨rfl, by decide⟩
  have hf : d.Feeds [0x31, 0x2B, 0x0A, 0xFF, 0x0A, 0x32] none :=
    .standardInput rfl (by decide) (by decide)
  obtain ⟨tokens, last, he, hout, hkept, -, hend⟩ :=
    run_lex ha hs hq rfl hf (Directory.accepting_bytewise "out")
  have href : reference (Stretches.last [0x31, 0x2B, 0x0A, 0xFF, 0x0A, 0x32]).answers =
      ([.number 1, .operator "+"], .error (.unreadable 2 .invalidUtf8)) := by decide +kernel
  obtain ⟨rfl, rfl⟩ := he.unique (href ▸ (holds_ofBytes _).ends_reference)
  have hempty : d.contentOf "out" = .ok [] := by decide +kernel
  exact ⟨hout, hend.1, hend.2.1,
    hkept _ (Directory.keeps_bytewise "out") (fun _ h => nomatch h) [] hempty⟩

end ArithLexer
