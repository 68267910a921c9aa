import Vortek.ServerProcess

namespace Vortek

/-!
# Command lines

`parse_args` goes through the arguments twice, for the file and for the options
that override it.  It accepts exactly the sequences of known options in which
every argument of a number can be converted (`CommandLine`); a `--config` at the
very end names no file and is ignored.  An option that is given twice counts the
second time.

The first pass does not know the other options: an argument `--config` of one of
them makes the next word a file.
-/

/-- The options with a text. -/
inductive TextSetting where
  | aof
  | requirepass
  | logLevel
  | logFormat

namespace TextSetting

/-- The option that names a setting. -/
def flag : TextSetting → Bytes
  | .aof => ascii "--aof"
  | .requirepass => ascii "--requirepass"
  | .logLevel => ascii "--log-level"
  | .logFormat => ascii "--log-format"

/-- What an option does to the settings. -/
def assign : TextSetting → Config → Bytes → Config
  | .aof => fun cfg value => { cfg with aofPath := value, aofEnabled := true }
  | .requirepass => fun cfg value => { cfg with requirepass := value }
  | .logLevel => fun cfg value => { cfg with logLevel := value }
  | .logFormat => fun cfg value => { cfg with logFormat := value }

end TextSetting

/-- An option with its argument. -/
inductive CliEntry where
  | config (path : Bytes)
  | number (setting : NumericSetting) (value : Bytes)
  | text (setting : TextSetting) (value : Bytes)
  | noAof

namespace CliEntry

/-- The arguments that an entry consists of. -/
def words : CliEntry → List Bytes
  | .config path => [ascii "--config", path]
  | .number setting value => [setting.flag, value]
  | .text setting value => [setting.flag, value]
  | .noAof => [ascii "--no-aof"]

/-- What the option makes of the settings. -/
def apply (cfg : Config) : CliEntry → Except StartupError Config
  | .config _ => .ok cfg
  | .number setting value =>
      (setting.convert value).map fun number => setting.assign cfg number
  | .text setting value => .ok (setting.assign cfg value)
  | .noAof => .ok { cfg with aofEnabled := false }

/-- The argument cannot be taken for an option of the first pass. -/
def Plain : CliEntry → Prop
  | .number _ value | .text _ value => value ≠ ascii "--config"
  | .config _ | .noAof => True

/-- The file that an entry names. -/
def path? : CliEntry → Option Bytes
  | .config path => some path
  | _ => none

end CliEntry

/-- Options, and whether a last `--config` stands behind them. -/
structure CommandLine where
  entries : List CliEntry
  dangling : Bool

/-- The arguments of a whole command line. -/
def CommandLine.words (line : CommandLine) : List Bytes :=
  line.entries.flatMap CliEntry.words ++
    if line.dangling then [ascii "--config"] else []

section Options

/-- The word that an option is written with. -/
def CliOption.Names (arg : Bytes) : CliOption → Prop
  | .config => arg = ascii "--config"
  | .numeric setting => arg = setting.flag
  | .text assign =>
      ∃ setting : TextSetting,
        arg = setting.flag ∧ assign = setting.assign
  | .noAof => arg = ascii "--no-aof"
  | .help | .unknown => True

theorem names_cliOption
    (arg : Bytes) :
    (cliOption arg).Names arg := by
  unfold cliOption
  repeat'
    refine iteInduction (motive := CliOption.Names arg)
      (fun same => ?_) (fun _ => ?_)
  all_goals
    first
    | exact True.intro
    | exact same
    | exact ⟨.aof, same, rfl⟩
    | exact ⟨.requirepass, same, rfl⟩
    | exact ⟨.logLevel, same, rfl⟩
    | exact ⟨.logFormat, same, rfl⟩

theorem cliOption_config :
    cliOption (ascii "--config") = .config :=
  if_pos rfl

theorem cliOption_number
    (setting : NumericSetting) :
    cliOption setting.flag = .numeric setting := by
  cases setting <;> rfl

theorem cliOption_text
    (setting : TextSetting) :
    cliOption setting.flag = .text setting.assign := by
  cases setting <;> rfl

theorem cliOption_noAof :
    cliOption (ascii "--no-aof") = .noAof := by
  rfl

end Options

section Accepting

variable {cfg next final : Config} {args : List Bytes} {entry : CliEntry}

/-- An option with its argument is taken from the front. -/
theorem applyArgs_words
    (applies : entry.apply cfg = .ok next)
    (rest : List Bytes) :
    applyArgs cfg (entry.words ++ rest) = applyArgs next rest := by
  cases entry with
  | config path =>
      cases applies
      simp only [CliEntry.words, List.cons_append, List.nil_append]
      conv_lhs => unfold applyArgs
      simp only [cliOption_config]
  | number setting value =>
      simp only [CliEntry.words, List.cons_append, List.nil_append]
      conv_lhs => unfold applyArgs
      simp only [cliOption_number]
      rw [CliEntry.apply] at applies
      cases converted : setting.convert value with
      | error error =>
          rw [converted] at applies
          cases applies
      | ok number =>
          rw [converted] at applies
          cases applies
          rfl
  | text setting value =>
      cases applies
      simp only [CliEntry.words, List.cons_append, List.nil_append]
      conv_lhs => unfold applyArgs
      simp only [cliOption_text]
  | noAof =>
      cases applies
      simp only [CliEntry.words, List.cons_append, List.nil_append]
      conv_lhs => unfold applyArgs
      simp only [cliOption_noAof]

/-- A command line with one more option in front. -/
theorem exists_line_cons
    (applies : entry.apply cfg = .ok next)
    (rest :
      ∃ line : CommandLine,
        args = line.words ∧
          line.entries.foldlM CliEntry.apply next = .ok final) :
    ∃ line : CommandLine,
      entry.words ++ args = line.words ∧
        line.entries.foldlM CliEntry.apply cfg = .ok final := by
  obtain ⟨line, rfl, folds⟩ := rest
  refine ⟨⟨entry :: line.entries, line.dangling⟩, ?_, ?_⟩
  · simp only [CommandLine.words, List.flatMap_cons, List.append_assoc]
  · rw [List.foldlM_cons, applies]
    exact folds

/-- The options that are accepted, and what they make of the settings. -/
theorem applyArgs_returns_iff :
    applyArgs cfg args = .returns final ↔
      ∃ line : CommandLine,
        args = line.words ∧
          line.entries.foldlM CliEntry.apply cfg = .ok final := by
  constructor
  · intro accepted
    fun_induction applyArgs cfg args with
    | case1 cfg =>
        cases accepted
        exact ⟨⟨[], false⟩, rfl, rfl⟩
    | case2 cfg arg option =>
        cases accepted
        have named := names_cliOption arg
        rw [option] at named
        exact ⟨⟨[], true⟩, congrArg (fun word => [word]) named, rfl⟩
    | case3 cfg arg path later option inductionHypothesis =>
        have named := names_cliOption arg
        rw [option] at named
        subst named
        have applies : (CliEntry.config path).apply cfg = .ok cfg := rfl
        exact exists_line_cons applies (inductionHypothesis accepted)
    | case6 cfg arg found text later option value converted
        inductionHypothesis =>
        have named := names_cliOption arg
        rw [option] at named
        subst named
        have applies :
            (CliEntry.number found text).apply cfg =
              .ok (found.assign cfg value) := by
          rw [CliEntry.apply, converted]
          rfl
        exact exists_line_cons applies (inductionHypothesis accepted)
    | case8 cfg arg assign text later option inductionHypothesis =>
        have named := names_cliOption arg
        rw [option] at named
        obtain ⟨setting, rfl, rfl⟩ := named
        have applies :
            (CliEntry.text setting text).apply cfg =
              .ok (setting.assign cfg text) :=
          rfl
        exact exists_line_cons applies (inductionHypothesis accepted)
    | case9 cfg arg rest option inductionHypothesis =>
        have named := names_cliOption arg
        rw [option] at named
        subst named
        have applies :
            CliEntry.noAof.apply cfg =
              .ok { cfg with aofEnabled := false } :=
          rfl
        exact exists_line_cons applies (inductionHypothesis accepted)
    | case4 | case5 | case7 | case10 | case11 =>
        cases accepted
  · rintro ⟨⟨entries, dangling⟩, rfl, folds⟩
    induction entries generalizing cfg with
    | nil =>
        cases folds
        cases dangling with
        | false =>
            rfl
        | true =>
            simp only [CommandLine.words, List.flatMap_nil,
              List.nil_append, if_true]
            unfold applyArgs
            simp only [cliOption_config]
    | cons entry later inductionHypothesis =>
        rw [List.foldlM_cons] at folds
        cases applies : entry.apply cfg with
        | error error =>
            rw [applies] at folds
            cases folds
        | ok next =>
            rw [applies] at folds
            have rest := inductionHypothesis folds
            simp only [CommandLine.words, List.flatMap_cons,
              List.append_assoc] at rest ⊢
            rw [applyArgs_words applies]
            exact rest

/-- The first pass skips a word that is not `--config`. -/
theorem findConfig_cons
    {word : Bytes}
    (other : word ≠ ascii "--config")
    (path : Option Bytes)
    (rest : List Bytes) :
    findConfig path (word :: rest) = findConfig path rest := by
  cases rest with
  | nil =>
      rfl
  | cons next later =>
      rw [findConfig, if_neg other]

theorem NumericSetting.flag_ne_config
    (setting : NumericSetting) :
    setting.flag ≠ ascii "--config" := by
  cases setting <;> decide

theorem TextSetting.flag_ne_config
    (setting : TextSetting) :
    setting.flag ≠ ascii "--config" := by
  cases setting <;> decide

/-- The first pass takes the file of the option in front. -/
theorem findConfig_words
    (plain : entry.Plain)
    (path : Option Bytes)
    (rest : List Bytes) :
    findConfig path (entry.words ++ rest) =
      findConfig (entry.path?.or path) rest := by
  cases entry with
  | config named =>
      simp only [CliEntry.words, List.cons_append, List.nil_append]
      rw [findConfig, if_pos rfl]
      rfl
  | number setting value =>
      exact (findConfig_cons setting.flag_ne_config path _).trans
        (findConfig_cons plain path rest)
  | text setting value =>
      exact (findConfig_cons setting.flag_ne_config path _).trans
        (findConfig_cons plain path rest)
  | noAof =>
      exact findConfig_cons (by decide) path rest

/-- Without such arguments both passes agree on the file. -/
theorem CommandLine.findConfig_eq
    (line : CommandLine)
    (plain : ∀ entry ∈ line.entries, entry.Plain) :
    findConfig none line.words =
      (line.entries.filterMap CliEntry.path?).getLast? := by
  obtain ⟨entries, dangling⟩ := line
  suffices general :
      ∀ path,
        findConfig path (CommandLine.words ⟨entries, dangling⟩) =
          (entries.filterMap CliEntry.path?).getLast?.or path by
    rw [general, Option.or_none]
  induction entries with
  | nil =>
      intro path
      cases dangling <;> rfl
  | cons entry later inductionHypothesis =>
      intro path
      obtain ⟨first, rest⟩ := List.forall_mem_cons.mp plain
      have shape :
          CommandLine.words ⟨entry :: later, dangling⟩ =
            entry.words ++ CommandLine.words ⟨later, dangling⟩ := by
        simp only [CommandLine.words, List.flatMap_cons,
          List.append_assoc]
      rw [shape, findConfig_words first, inductionHypothesis rest]
      cases named : entry.path? with
      | none =>
          rw [List.filterMap_cons_none named]
          rfl
      | some found =>
          rw [List.filterMap_cons_some named, List.getLast?_cons]
          cases (later.filterMap CliEntry.path?).getLast? <;> rfl

/-- A password `--config` makes the next option a file. -/
example :
    findConfig none
        (CommandLine.words
          ⟨[.text .requirepass (ascii "--config"), .noAof], false⟩) =
      some (ascii "--no-aof") := by
  decide

/-- The last option that sets something decides what it is. -/
theorem foldlM_last
    {Value : Type}
    (get : Config → Value)
    (given : CliEntry → Option Value)
    (each :
      ∀ entry cfg next,
        entry.apply cfg = .ok next →
        get next = (given entry).getD (get cfg))
    {entries : List CliEntry}
    (folds : entries.foldlM CliEntry.apply cfg = .ok final) :
    get final = (entries.filterMap given).getLast?.getD (get cfg) := by
  induction entries generalizing cfg with
  | nil =>
      cases folds
      rfl
  | cons entry later inductionHypothesis =>
      rw [List.foldlM_cons] at folds
      cases applies : entry.apply cfg with
      | error error =>
          rw [applies] at folds
          cases folds
      | ok next =>
          rw [applies] at folds
          rw [inductionHypothesis folds, each entry cfg next applies]
          cases set : given entry with
          | none =>
              rw [List.filterMap_cons_none set]
              rfl
          | some value =>
              rw [List.filterMap_cons_some set, List.getLast?_cons]
              rfl

end Accepting

namespace CliEntry

/-- The password that an entry sets. -/
def password? : CliEntry → Option Bytes
  | .text .requirepass value => some value
  | _ => none

/-- The file that an entry logs to. -/
def aofPath? : CliEntry → Option Bytes
  | .text .aof value => some value
  | _ => none

/-- Whether the option turns the file on or off. -/
def logs? : CliEntry → Option Bool
  | .text .aof _ => some true
  | .noAof => some false
  | _ => none

/-- What an option does to the password and to the file. -/
theorem apply_texts
    {cfg next : Config}
    (entry : CliEntry)
    (applies : entry.apply cfg = .ok next) :
    next.requirepass = entry.password?.getD cfg.requirepass ∧
      next.aofPath = entry.aofPath?.getD cfg.aofPath ∧
      next.aofEnabled = entry.logs?.getD cfg.aofEnabled := by
  cases entry with
  | config path =>
      cases applies
      exact ⟨rfl, rfl, rfl⟩
  | number setting value =>
      rw [apply] at applies
      cases converted : setting.convert value with
      | error error =>
          rw [converted] at applies
          cases applies
      | ok number =>
          rw [converted] at applies
          cases applies
          cases setting <;> exact ⟨rfl, rfl, rfl⟩
  | text setting value =>
      cases applies
      cases setting <;> exact ⟨rfl, rfl, rfl⟩
  | noAof =>
      cases applies
      exact ⟨rfl, rfl, rfl⟩

end CliEntry

/-- The settings that the options override: those of the file, if any. -/
def baseConfig (parseFile : ParseFile) :
    Option Bytes → Except StartupError Config
  | none => .ok {}
  | some path => loadConfigFile parseFile path {}

theorem parseArgs_returns_iff
    {parseFile : ParseFile}
    {args : List Bytes}
    {cfg : Config} :
    parseArgs parseFile args = .returns cfg ↔
      ∃ base,
        baseConfig parseFile (findConfig none args) = .ok base ∧
          applyArgs base args = .returns cfg := by
  unfold parseArgs
  cases named : findConfig none args with
  | none =>
      constructor
      · intro accepted
        exact ⟨{}, rfl, accepted⟩
      · rintro ⟨base, loaded, accepted⟩
        cases loaded
        exact accepted
  | some path =>
      simp only [baseConfig]
      cases loaded : loadConfigFile parseFile path {} with
      | error error =>
          constructor
          · intro accepted
            cases accepted
          · rintro ⟨base, impossible, -⟩
            cases impossible
      | ok found =>
          constructor
          · intro accepted
            exact ⟨found, rfl, accepted⟩
          · rintro ⟨base, same, accepted⟩
            cases same
            exact accepted

/-- `main` starts what the settings say, if there are any, on a free port. -/
theorem Process.main_eq_some_iff
    {reserve : Reserve}
    {around : Surroundings}
    {args : List Bytes}
    {process : Process} :
    main reserve around args = some process ↔
      ∃ cfg,
        parseArgs around.parseFile args = .returns cfg ∧
          around.canBind cfg.port = true ∧
          process = launch reserve around cfg := by
  unfold main
  cases parseArgs around.parseFile args with
  | returns cfg =>
      rw [map_begin_create]
      constructor
      · rintro ⟨free, rfl⟩
        exact ⟨cfg, rfl, free, rfl⟩
      · rintro ⟨found, same, free, rfl⟩
        cases same
        exact ⟨free, rfl⟩
  | exits | throws =>
      constructor
      · intro started
        cases started
      · rintro ⟨found, same, -⟩
        cases same

/--
`main` starts a server exactly on a sequence of known options whose numbers can
be converted, with a file that can be parsed and a port that can be bound.  The
password, and whether and where commands are logged, are what the last option
about it says, or else the file.  The file is that of the last `--config`,
unless this word is the argument of another option.
-/
theorem Process.main_starts_iff
    (reserve : Reserve)
    (around : Surroundings)
    (args : List Bytes)
    (process : Process) :
    main reserve around args = some process ↔
      ∃ (line : CommandLine) (base cfg : Config),
        args = line.words ∧
        baseConfig around.parseFile (findConfig none args) = .ok base ∧
        line.entries.foldlM CliEntry.apply base = .ok cfg ∧
        around.canBind cfg.port = true ∧
        process = launch reserve around cfg ∧
        ((∀ entry ∈ line.entries, entry.Plain) →
          findConfig none args =
            (line.entries.filterMap CliEntry.path?).getLast?) ∧
        process.config.requirepass =
          (line.entries.filterMap CliEntry.password?).getLast?.getD
            base.requirepass ∧
        process.loop.server.aof.isSome =
          ((line.entries.filterMap CliEntry.logs?).getLast?.getD
              base.aofEnabled &&
            (around.openAof
              ((line.entries.filterMap CliEntry.aofPath?).getLast?.getD
                base.aofPath)).isSome) := by
  rw [main_eq_some_iff]
  constructor
  · rintro ⟨cfg, accepted, free, rfl⟩
    obtain ⟨base, loaded, applied⟩ := parseArgs_returns_iff.mp accepted
    obtain ⟨line, rfl, folds⟩ := applyArgs_returns_iff.mp applied
    refine ⟨line, base, cfg, rfl, loaded, folds, free, rfl,
      line.findConfig_eq, ?_, ?_⟩
    · exact foldlM_last Config.requirepass CliEntry.password?
        (fun entry _ _ applies => (entry.apply_texts applies).1) folds
    · have path :=
        foldlM_last Config.aofPath CliEntry.aofPath?
          (fun entry _ _ applies => (entry.apply_texts applies).2.1) folds
      have enabled :=
        foldlM_last Config.aofEnabled CliEntry.logs?
          (fun entry _ _ applies => (entry.apply_texts applies).2.2) folds
      rw [isSome_aof_launch, path, enabled]
  · rintro ⟨line, base, cfg, rfl, loaded, folds, free, started, -⟩
    refine ⟨cfg, parseArgs_returns_iff.mpr ⟨base, loaded, ?_⟩, free,
      started⟩
    exact applyArgs_returns_iff.mpr ⟨line, rfl, folds⟩

end Vortek
