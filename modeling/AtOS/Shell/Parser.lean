import AtOS.Shell.Lexer

/-! The parser of the shell: it runs the pipelines of a line as it reads them. -/

namespace AtOS

/-- `MAX_ARGS` of the shell. -/
def maxCommandArgs : Nat := 16

/-- `MAX_COMMANDS`. -/
def maxCommands : Nat := 8

/-- `Command`; `argc` is the length of `argv`. -/
structure Command where
  argv : List Span
  deriving DecidableEq

/-- `ExecutionPipeline`; `count` is the number of commands. -/
structure ExecutionPipeline where
  commands : List Command
  deriving DecidableEq

/-- `ParserError`. -/
inductive ParserError where
  | lex (error : LexError)
  | emptyCommand
  | tooManyArguments
  | tooManyCommands
  deriving DecidableEq

/-- A call of `execute_pipeline`. -/
structure Execution where
  pipeline : ExecutionPipeline
  background : Bool
  deriving DecidableEq

/-- The variables of `parse_and_run`, and the pipelines that it has executed. -/
structure Parser where
  pipeline : ExecutionPipeline
  current : Command
  executed : List Execution

/-- Add the current command to the pipeline; it may be empty only if the pipeline is. -/
def Parser.flush (parser : Parser) : Except ParserError Parser :=
  if parser.current.argv.length = 0 then
    if parser.pipeline.commands.length > 0 then .error .emptyCommand else .ok parser
  else if parser.pipeline.commands.length ≥ maxCommands then .error .tooManyCommands
  else .ok
    { parser with pipeline := ⟨parser.pipeline.commands ++ [parser.current]⟩, current := ⟨[]⟩ }

/-- Execute the pipeline, if it is not empty. -/
def Parser.execute (parser : Parser) (background : Bool) : Parser :=
  if parser.pipeline.commands.length > 0 then
    { parser with
      pipeline := ⟨[]⟩
      executed := parser.executed ++ [⟨parser.pipeline, background⟩] }
  else parser

/-- The end of a segment, by a semicolon or an ampersand. -/
def Parser.endSegment (parser : Parser) (background : Bool) : Except ParserError Parser :=
  match parser.flush with
  | .ok parser => .ok (parser.execute background)
  | .error error => .error error

/-- The body of the loop of `parse_and_run`, for one token. -/
def Parser.onToken (parser : Parser) : Token → Except ParserError Parser
  | .word span =>
    if parser.current.argv.length ≥ maxCommandArgs then .error .tooManyArguments
    else .ok { parser with current := ⟨parser.current.argv ++ [span]⟩ }
  | .pipe =>
    if parser.current.argv.length = 0 then .error .emptyCommand
    else if parser.pipeline.commands.length ≥ maxCommands then .error .tooManyCommands
    else .ok
      { parser with pipeline := ⟨parser.pipeline.commands ++ [parser.current]⟩, current := ⟨[]⟩ }
  | .semicolon => parser.endSegment false
  | .background => parser.endSegment true

/-- `parse_and_run`, with a bound on the passes of its loop; what was executed stays so on an error. -/
def parseLoop : Nat → Lexer → Parser → Option (Except ParserError Unit × List Execution)
  | 0, _, _ => none
  | passes + 1, lexer, parser =>
    match lexer.nextToken with
    | (.error error, _) => some (.error (.lex error), parser.executed)
    | (.ok none, _) =>
      match parser.endSegment false with
      | .ok parser => some (.ok (), parser.executed)
      | .error error => some (.error error, parser.executed)
    | (.ok (some token), lexer) =>
      match parser.onToken token with
      | .ok parser => parseLoop passes lexer parser
      | .error error => some (.error error, parser.executed)

/-- `parse_and_run`: its result, and the pipelines that it executes. -/
def parseAndRun (input : String) : Option (Except ParserError Unit × List Execution) :=
  parseLoop ((asBytes input).length + 1) ⟨input, 0⟩ ⟨⟨[]⟩, ⟨[]⟩, []⟩

/-- A part of the tokens up to a semicolon or an ampersand, which is in the background, or the end. -/
structure Segment where
  tokens : List Token
  ending : Option Bool

/-- The segments of some tokens, of which the first has begun already. -/
def segmentsFrom (begun : List Token) : List Token → List Segment
  | [] => [⟨begun, none⟩]
  | .semicolon :: rest => ⟨begun, some false⟩ :: segmentsFrom [] rest
  | .background :: rest => ⟨begun, some true⟩ :: segmentsFrom [] rest
  | .word span :: rest => segmentsFrom (begun ++ [.word span]) rest
  | .pipe :: rest => segmentsFrom (begun ++ [.pipe]) rest

/-- The words between pipes, of which the first have been read already. -/
def commandsFrom (begun : List Span) : List Token → List Command
  | [] => [⟨begun⟩]
  | .pipe :: rest => ⟨begun⟩ :: commandsFrom [] rest
  | .word span :: rest => commandsFrom (begun ++ [span]) rest
  | .semicolon :: rest => commandsFrom begun rest
  | .background :: rest => commandsFrom begun rest

/-- The commands of a segment. -/
def Segment.commands (segment : Segment) : List Command := commandsFrom [] segment.tokens

/-- The grammar: nothing, or 1 to 8 commands of 1 to 16 words, with pipes between them. -/
def Segment.Valid (segment : Segment) : Prop :=
  segment.tokens = [] ∨ (1 ≤ segment.commands.length ∧ segment.commands.length ≤ maxCommands ∧
    ∀ command ∈ segment.commands, 1 ≤ command.argv.length ∧ command.argv.length ≤ maxCommandArgs)

instance (segment : Segment) : Decidable segment.Valid := inferInstanceAs (Decidable (_ ∨ _))

/-- What a segment asks for. -/
def Segment.execution (segment : Segment) : Execution :=
  ⟨⟨segment.commands⟩, segment.ending.getD false⟩

section Tokens

/-- The rest of `parse_and_run`, for the tokens that the lexer is going to return. -/
def Parser.run (parser : Parser) : List Token → Option LexError →
    Except ParserError Unit × List Execution
  | [], some error => (.error (.lex error), parser.executed)
  | [], none =>
    match parser.endSegment false with
    | .ok parser => (.ok (), parser.executed)
    | .error error => (.error error, parser.executed)
  | token :: rest, error =>
    match parser.onToken token with
    | .ok parser => parser.run rest error
    | .error error => (.error error, parser.executed)

/-- The loop parses the tokens of the lexer. -/
theorem parseLoop_eq : ∀ (passes : Nat) {lexer : Lexer} {parser : Parser} {tokens : List Token}
    {error : Option LexError}, lexer.tokens passes = some (tokens, error) →
    parseLoop passes lexer parser = some (parser.run tokens error) := by
  -- The two loops run in step. Each pass takes one answer of the lexer.
  intro passes
  induction passes with
  | zero =>
    intro lexer parser tokens error lexes
    cases lexes
  | succ passes ih =>
    intro lexer parser tokens error lexes
    rw [Lexer.tokens] at lexes
    rw [parseLoop]
    rcases found : lexer.nextToken with ⟨failure | ⟨⟩ | token, next⟩
    · -- A lexing error ends both loops.
      rw [found] at lexes
      cases lexes
      rfl
    · -- The end of the input flushes the last segment.
      rw [found] at lexes
      cases lexes
      rw [Parser.run]
      cases parser.endSegment false <;> rfl
    · -- A token is read by the parser, whose error ends the loop at once.
      rw [found] at lexes
      obtain ⟨⟨later, last⟩, rest, same⟩ := Option.map_eq_some_iff.mp lexes
      cases same
      rw [Parser.run]
      cases ran : parser.onToken token with
      | ok after =>
        rw [← ih rest]
        simp only [ran]
      | error failure => simp only [ran]

end Tokens

section Segments

variable {begun more tokens : List Token} {span : Span} {parser : Parser}

/-- The segment that has begun goes on. -/
theorem segmentsFrom_head : ∀ (tokens begun : List Token),
    ∃ more ending others, segmentsFrom begun tokens = ⟨begun ++ more, ending⟩ :: others := by
  intro tokens
  induction tokens with
  | nil => exact fun begun => ⟨[], none, [], by rw [segmentsFrom, List.append_nil]⟩
  | cons token rest ih =>
    intro begun
    cases token with
    | semicolon => exact ⟨[], some false, _, by rw [segmentsFrom, List.append_nil]⟩
    | background => exact ⟨[], some true, _, by rw [segmentsFrom, List.append_nil]⟩
    | word span =>
      obtain ⟨more, ending, others, same⟩ := ih (begun ++ [.word span])
      exact ⟨.word span :: more, ending, others, by rw [segmentsFrom, same, List.append_assoc]; rfl⟩
    | pipe =>
      obtain ⟨more, ending, others, same⟩ := ih (begun ++ [.pipe])
      exact ⟨.pipe :: more, ending, others, by rw [segmentsFrom, same, List.append_assoc]; rfl⟩

/-- Every list of tokens has at least one command, which may be empty. -/
theorem commandsFrom_ne_nil : ∀ (tokens : List Token) (begun : List Span),
    commandsFrom begun tokens ≠ [] := by
  intro tokens
  induction tokens with
  | nil => exact fun begun => List.cons_ne_nil _ _
  | cons token rest ih =>
    intro begun
    cases token with
    | pipe => exact List.cons_ne_nil _ _
    | word span => exact ih _
    | semicolon => exact ih _
    | background => exact ih _

/-- Reading on keeps all commands, and the last one may go on. -/
theorem commandsFrom_append (more : List Token) : ∀ (tokens : List Token) (begun : List Span)
    {commands : List Command} {last : Command}, commandsFrom begun tokens = commands ++ [last] →
    commandsFrom begun (tokens ++ more) = commands ++ commandsFrom last.argv more := by
  -- Only a pipe closes a command, so the last command is the one that `more` goes on with.
  intro tokens
  induction tokens with
  | nil =>
    intro begun commands last same
    -- The list is not at its last command while tokens are left.
    cases commands with
    | nil =>
      cases same
      rfl
    | cons first commands =>
      have size := congrArg List.length same
      simp [commandsFrom] at size
  | cons token rest ih =>
    intro begun commands last same
    cases token with
    | pipe =>
      -- Behind a pipe there is at least one more command, so the pipe's own is not the last one.
      cases commands with
      | nil =>
        rw [commandsFrom, List.nil_append, List.cons.injEq] at same
        exact absurd same.2 (commandsFrom_ne_nil _ _)
      | cons first commands =>
        rw [commandsFrom, List.cons_append, List.cons.injEq] at same
        rw [List.cons_append, commandsFrom, ih [] same.2, same.1, List.cons_append]
    | word span => exact ih _ same
    | semicolon => exact ih _ same
    | background => exact ih _ same

/-- The first command of some tokens is the one that has begun, and its further words. -/
theorem commandsFrom_head : ∀ (tokens : List Token) (begun : List Span),
    ∃ tail others, commandsFrom begun tokens = ⟨begun ++ tail⟩ :: others := by
  intro tokens
  induction tokens with
  | nil => exact fun begun => ⟨[], [], by rw [commandsFrom, List.append_nil]⟩
  | cons token rest ih =>
    intro begun
    cases token with
    | pipe => exact ⟨[], _, by rw [commandsFrom, List.append_nil]⟩
    | word span =>
      obtain ⟨tail, others, same⟩ := ih (begun ++ [span])
      exact ⟨span :: tail, others, by rw [commandsFrom, same, List.append_assoc]; rfl⟩
    | semicolon => exact ih begun
    | background => exact ih begun

/-- A command of 1 to 16 words. -/
def Command.Valid (command : Command) : Prop :=
  1 ≤ command.argv.length ∧ command.argv.length ≤ maxCommandArgs

/-- The variables of the parser are those of the segment that has begun. -/
structure Parser.Reads (parser : Parser) (begun : List Token) : Prop where
  commands : commandsFrom [] begun = parser.pipeline.commands ++ [parser.current]
  empty : begun = [] ↔ parser.pipeline.commands = [] ∧ parser.current.argv = []
  valid : ∀ command ∈ parser.pipeline.commands, command.Valid
  few : parser.pipeline.commands.length ≤ maxCommands
  fewArgs : parser.current.argv.length ≤ maxCommandArgs

/-- The segment that has begun is invalid as soon as one of its commands is, or there are too many. -/
theorem Parser.Reads.invalid (reads : parser.Reads begun) (token : Token) (more : List Token)
    (ending : Option Bool)
    (wrong : (∃ command ∈ parser.pipeline.commands ++
        commandsFrom parser.current.argv (token :: more), ¬ command.Valid) ∨
      maxCommands < (parser.pipeline.commands ++
        commandsFrom parser.current.argv (token :: more)).length) :
    ¬ Segment.Valid ⟨begun ++ token :: more, ending⟩ := by
  have whole : Segment.commands ⟨begun ++ token :: more, ending⟩ =
      parser.pipeline.commands ++ commandsFrom parser.current.argv (token :: more) :=
    commandsFrom_append _ _ _ reads.commands
  rintro (empty | ⟨-, few, valid⟩)
  · exact absurd empty (by simp)
  · rw [whole] at few valid
    rcases wrong with ⟨command, member, invalid⟩ | many
    · exact invalid (valid command member)
    · exact absurd many (Nat.not_lt.mpr few)

/-- A word belongs to the current command, unless that is full. -/
theorem Parser.Reads.word (reads : parser.Reads begun) (span : Span) :
    (∃ after, parser.onToken (.word span) = .ok after ∧ after.Reads (begun ++ [.word span]) ∧
      after.executed = parser.executed) ∨
    ∃ error, parser.onToken (.word span) = .error error ∧
      ∀ more ending, ¬ Segment.Valid ⟨begun ++ .word span :: more, ending⟩ := by
  -- A word fails only where the command has all the arguments it may have.
  unfold Parser.onToken
  dsimp only
  split
  · rename_i full
    refine Or.inr ⟨_, rfl, fun more ending => reads.invalid _ more ending (Or.inl ?_)⟩
    -- The command that has begun gets a word too many, whatever follows.
    obtain ⟨tail, others, same⟩ := commandsFrom_head more (parser.current.argv ++ [span])
    refine ⟨⟨parser.current.argv ++ [span] ++ tail⟩, ?_, fun valid => ?_⟩
    · rw [commandsFrom, same]
      simp
    · have bound := valid.2
      simp only [List.length_append, List.length_singleton] at bound
      omega
  · rename_i room
    -- Otherwise it joins the command that has begun.
    refine Or.inl ⟨_, rfl, ⟨?_, by simp, reads.valid, reads.few, ?_⟩, rfl⟩
    · exact commandsFrom_append _ _ _ reads.commands
    · show (parser.current.argv ++ [span]).length ≤ maxCommandArgs
      rw [List.length_append, List.length_singleton]
      omega

/-- A pipe ends the current command, which may not be empty. -/
theorem Parser.Reads.pipe (reads : parser.Reads begun) :
    (∃ after, parser.onToken .pipe = .ok after ∧ after.Reads (begun ++ [.pipe]) ∧
      after.executed = parser.executed) ∨
    ∃ error, parser.onToken .pipe = .error error ∧
      ∀ more ending, ¬ Segment.Valid ⟨begun ++ .pipe :: more, ending⟩ := by
  -- A pipe fails behind an empty command and where the pipeline is full.
  unfold Parser.onToken
  dsimp only
  split
  · rename_i empty
    refine Or.inr ⟨_, rfl, fun more ending => reads.invalid _ more ending (Or.inl ?_)⟩
    -- The command in front of the pipe stays empty, whatever follows.
    refine ⟨⟨parser.current.argv⟩, by simp [commandsFrom], fun valid => ?_⟩
    have positive := valid.1
    simp only [empty] at positive
    omega
  · rename_i some
    split
    · rename_i many
      -- What follows the pipe has at least one command, which is one too many.
      refine Or.inr ⟨_, rfl, fun more ending => reads.invalid _ more ending (Or.inr ?_)⟩
      have last := List.length_pos_iff.mpr (commandsFrom_ne_nil more [])
      simp only [commandsFrom, List.length_append, List.length_cons]
      omega
    · rename_i room
      refine Or.inl ⟨_, rfl, ⟨?_, by simp, ?_, ?_, Nat.zero_le _⟩, rfl⟩
      · -- Otherwise the command that has begun joins the pipeline, and a new one starts.
        have next := commandsFrom_append [.pipe] _ _ reads.commands
        rw [next, commandsFrom, commandsFrom, List.append_assoc]
        rfl
      · intro command member
        rcases List.mem_append.mp member with earlier | isCurrent
        · exact reads.valid command earlier
        · rw [List.mem_singleton.mp isCurrent]
          exact ⟨by omega, reads.fewArgs⟩
      · show (parser.pipeline.commands ++ [parser.current]).length ≤ maxCommands
        rw [List.length_append, List.length_singleton]
        omega

/-- At the end of a segment its pipeline is executed, unless it is empty or invalid. -/
theorem Parser.Reads.endSegment (reads : parser.Reads begun) (ending : Option Bool) :
    (∃ after, parser.endSegment (ending.getD false) = .ok after ∧
      Segment.Valid ⟨begun, ending⟩ ∧ after.Reads [] ∧ after.executed = parser.executed ++
        if begun = [] then [] else [Segment.execution ⟨begun, ending⟩]) ∨
    ∃ error, parser.endSegment (ending.getD false) = .error error ∧
      ¬ Segment.Valid ⟨begun, ending⟩ := by
  -- The parser starts over with nothing read, whether or not something has been executed.
  have start : ∀ executed, Parser.Reads ⟨⟨[]⟩, ⟨[]⟩, executed⟩ [] := fun executed =>
    ⟨rfl, by simp, fun command member => (by cases member), Nat.zero_le _, Nat.zero_le _⟩
  have commands : Segment.commands ⟨begun, ending⟩ = parser.pipeline.commands ++ [parser.current] :=
    reads.commands
  unfold Parser.endSegment Parser.flush
  -- The command that has begun is empty, or it has at least one word.
  by_cases noWord : parser.current.argv.length = 0
  · rw [if_pos noWord]
    have noArg : parser.current.argv = [] := List.length_eq_zero_iff.mp noWord
    -- An empty command behind a pipe is the error.
    by_cases some : parser.pipeline.commands.length > 0
    · rw [if_pos some]
      refine Or.inr ⟨_, rfl, ?_⟩
      rintro (empty | ⟨-, -, valid⟩)
      · rw [(reads.empty.mp empty).1] at some
        cases some
      · have positive := (valid parser.current (by rw [commands]; simp)).1
        omega
    · rw [if_neg some]
      have noCommand : parser.pipeline.commands = [] :=
        List.length_eq_zero_iff.mp (Nat.eq_zero_of_not_pos some)
      -- With no command before it the segment is empty, and it is skipped.
      have empty := reads.empty.mpr ⟨noCommand, noArg⟩
      refine Or.inl ⟨parser, ?_, Or.inl empty, ?_, ?_⟩
      · simp only [Parser.execute]
        rw [if_neg some]
      · rw [← empty]
        exact reads
      · rw [if_pos empty, List.append_nil]
  · rw [if_neg noWord]
    -- A command with a word is the last one of the segment, if the pipeline has room for it.
    have notEmpty : begun ≠ [] := fun empty => by
      rw [(reads.empty.mp empty).2] at noWord
      exact noWord rfl
    by_cases many : parser.pipeline.commands.length ≥ maxCommands
    · rw [if_pos many]
      refine Or.inr ⟨_, rfl, ?_⟩
      rintro (empty | ⟨-, few, -⟩)
      · exact notEmpty empty
      · rw [commands, List.length_append, List.length_singleton] at few
        omega
    · rw [if_neg many]
      have size : (parser.pipeline.commands ++ [parser.current]).length > 0 := by simp
      -- The segment is valid and is executed. The parser starts over.
      refine Or.inl ⟨⟨⟨[]⟩, ⟨[]⟩, parser.executed ++
        [⟨⟨parser.pipeline.commands ++ [parser.current]⟩, ending.getD false⟩]⟩, ?_,
        Or.inr ⟨?_, ?_, ?_⟩, start _, ?_⟩
      · simp only [Parser.execute]
        rw [if_pos size]
      · rw [commands]
        exact size
      · rw [commands, List.length_append, List.length_singleton]
        omega
      · -- The commands in front were checked at their pipes, and the last one is checked here.
        intro command member
        rw [commands] at member
        rcases List.mem_append.mp member with earlier | isCurrent
        · exact reads.valid command earlier
        · rw [List.mem_singleton.mp isCurrent]
          exact ⟨by omega, reads.fewArgs⟩
      · rw [if_neg notEmpty, Segment.execution, commands]

/-- What `parse_and_run` returns and executes, by the segments that it has still to read. -/
structure ParsesTo (segments : List Segment) (error : Option LexError)
    (result : Except ParserError Unit) (executed : List Execution) : Prop where
  accepts : result = .ok () ↔ error = none ∧ ∀ segment ∈ segments, segment.Valid
  /-- All segments that are not empty are executed, in order. -/
  all : result = .ok () →
    executed = (segments.filter fun segment => segment.tokens ≠ []).map Segment.execution
  /-- Those are executed that come to their end before the first one that is wrong. -/
  before : result ≠ .ok () → executed =
    ((segments.takeWhile fun segment => segment.Valid).filter fun segment =>
      segment.ending.isSome ∧ segment.tokens ≠ []).map Segment.execution

/-- A segment that is wrong ends everything. -/
theorem ParsesTo.wrong {segment : Segment} (invalid : ¬ segment.Valid) (others : List Segment)
    (lexError : Option LexError) (error : ParserError) :
    ParsesTo (segment :: others) lexError (.error error) [] := by
  refine ⟨⟨fun impossible => (by cases impossible), fun valid => ?_⟩, fun impossible => ?_,
    fun _ => ?_⟩
  · exact absurd (valid.2 segment List.mem_cons_self) invalid
  · cases impossible
  · rw [List.takeWhile_cons, if_neg (by simpa using invalid)]
    rfl

/-- A segment that is right is executed before those that follow, if it is not empty. -/
theorem ParsesTo.cons {begun : List Token} {background : Bool}
    (valid : Segment.Valid ⟨begun, some background⟩) {others : List Segment}
    {lexError : Option LexError} {result : Except ParserError Unit} {executed : List Execution}
    (parses : ParsesTo others lexError result executed) :
    ParsesTo (⟨begun, some background⟩ :: others) lexError result
      ((if begun = [] then [] else [Segment.execution ⟨begun, some background⟩]) ++ executed) := by
  constructor
  case accepts => simp [parses.accepts, valid]
  case all =>
    intro isOk
    rw [parses.all isOk]
    by_cases empty : begun = [] <;> simp [empty]
  case before =>
    intro failed
    rw [parses.before failed]
    simp only [List.takeWhile_cons, valid, decide_true, if_true]
    by_cases empty : begun = [] <;> simp [empty]

/-- `parse_and_run` accepts the grammar, and executes what it has read before an error. -/
theorem Parser.Reads.run (error : Option LexError) : ∀ (tokens begun : List Token) (parser : Parser),
    parser.Reads begun → ∃ result executed,
      parser.run tokens error = (result, parser.executed ++ executed) ∧
        ParsesTo (segmentsFrom begun tokens) error result executed := by
  -- The induction is on the tokens left. What has begun is carried by `Parser.Reads`.
  intro tokens
  induction tokens with
  | nil =>
    intro begun parser reads
    cases error with
    -- A lexing error drops the segment that has begun and executes nothing of it.
    | some error =>
      refine ⟨.error (.lex error), [], by rw [Parser.run, List.append_nil], ?_, ?_, fun _ => ?_⟩
      · exact ⟨fun impossible => (by cases impossible), fun impossible => (by cases impossible.1)⟩
      · exact fun impossible => (by cases impossible)
      · rw [segmentsFrom, List.takeWhile_cons]
        split <;> simp
    | none =>
      -- The end of the input ends the last segment.
      rw [Parser.run]
      rcases reads.endSegment none with ⟨after, ends, valid, -, executes⟩ | ⟨error, ends, invalid⟩
      · have ends : parser.endSegment false = .ok after := ends
        rw [ends]
        refine ⟨.ok (), _, congrArg (Prod.mk _) executes, ?_, fun _ => ?_,
          fun wrong => absurd rfl wrong⟩
        · simp [segmentsFrom, valid]
        · by_cases empty : begun = [] <;> simp [segmentsFrom, empty]
      · have ends : parser.endSegment false = .error error := ends
        rw [ends]
        exact ⟨_, [], by rw [List.append_nil], .wrong invalid [] none error⟩
  | cons token rest ih =>
    intro begun parser reads
    -- A semicolon and an ampersand end the segment in the same way.
    have segment : ∀ {background : Bool} {ending : Option Bool}, ending = some background →
        parser.onToken token = parser.endSegment background →
        segmentsFrom begun (token :: rest) = ⟨begun, ending⟩ :: segmentsFrom [] rest →
        ∃ result executed, parser.run (token :: rest) error = (result, parser.executed ++ executed) ∧
          ParsesTo (segmentsFrom begun (token :: rest)) error result executed := by
      rintro background _ rfl onToken segments
      rw [Parser.run, onToken, segments]
      rcases reads.endSegment (some background) with ⟨after, ends, valid, readsAfter, executes⟩ |
        ⟨failure, ends, invalid⟩
      · have ends : parser.endSegment background = .ok after := ends
        obtain ⟨result, executed, runs, parses⟩ := ih [] after readsAfter
        rw [ends]
        refine ⟨result, _, ?_, parses.cons valid⟩
        dsimp only
        rw [runs, executes, List.append_assoc]
      · have ends : parser.endSegment background = .error failure := ends
        rw [ends]
        exact ⟨_, [], by rw [List.append_nil], .wrong invalid _ error failure⟩
    -- A token that goes on with the segment is read, or makes the segment invalid.
    have goesOn : segmentsFrom begun (token :: rest) = segmentsFrom (begun ++ [token]) rest →
        ((∃ after, parser.onToken token = .ok after ∧ after.Reads (begun ++ [token]) ∧
            after.executed = parser.executed) ∨
          ∃ failure, parser.onToken token = .error failure ∧
            ∀ more ending, ¬ Segment.Valid ⟨begun ++ token :: more, ending⟩) →
        ∃ result executed, parser.run (token :: rest) error = (result, parser.executed ++ executed) ∧
          ParsesTo (segmentsFrom begun (token :: rest)) error result executed := by
      rintro segments (⟨after, onToken, readsAfter, executes⟩ | ⟨failure, onToken, invalid⟩)
      · obtain ⟨result, executed, runs, parses⟩ := ih _ after readsAfter
        rw [Parser.run, onToken, segments]
        refine ⟨result, executed, ?_, parses⟩
        dsimp only
        rw [runs, executes]
      · obtain ⟨more, ending, others, same⟩ := segmentsFrom_head rest (begun ++ [token])
        rw [Parser.run, onToken, segments, same, List.append_assoc]
        exact ⟨_, [], by rw [List.append_nil], .wrong (invalid more ending) others error failure⟩
    -- The first two tokens end a segment, and the other two go on with it.
    cases token with
    | semicolon => exact segment rfl rfl rfl
    | background => exact segment rfl rfl rfl
    | word span => exact goesOn rfl (reads.word span)
    | pipe => exact goesOn rfl reads.pipe

/--
`parse_and_run` succeeds exactly on the lines of the grammar, and executes their segments in order.

When it fails, it has executed the segments that come to their end before the first error.
-/
theorem parseAndRun_grammar (input : String) : ∃ tokens error result executed,
    Lexer.tokens ((asBytes input).length + 1) ⟨input, 0⟩ = some (tokens, error) ∧
      Lexed Token.Spells (asBytes input) 0 tokens error ∧
      parseAndRun input = some (result, executed) ∧
      ParsesTo (segmentsFrom [] tokens) error result executed := by
  obtain ⟨tokens, error, lexed⟩ := exists_lexed (asBytes input) (asBytes input).length 0 (by omega)
  have lexes := @Lexed.tokens _ _ _ _ lexed ((asBytes input).length + 1) (Nat.zero_le _) (by omega)
  have reads : Parser.Reads ⟨⟨[]⟩, ⟨[]⟩, []⟩ [] :=
    ⟨rfl, by simp, fun command member => (by cases member), Nat.zero_le _, Nat.zero_le _⟩
  obtain ⟨result, executed, runs, parses⟩ := reads.run error tokens
  refine ⟨tokens, error, result, executed, lexes, lexed, ?_, parses⟩
  rw [parseAndRun, parseLoop_eq _ lexes, runs]
  rfl

end Segments

end AtOS
