import Vortek.EventLoop
import Vortek.StringToInteger

namespace Vortek

open DecimalText StringToInteger

/-!
# Settings

The settings of a server are those of `Config`, overridden by a TOML file and
then by the command line.  The numbers among them are converted without a check:
a port to 16 bits, sizes and limits to 64 bits without sign, and the limit on
clients from there to `int64_t` where it is compared.

`Written` says which integer stands in the command line or the file for a
setting.  It arrives where it is used exactly if it is an integer at all and
within the range of all the types on its way.
-/

/-- `Config`, with the defaults of its members. -/
structure Config where
  port : UInt16 := 6379
  aofEnabled : Bool := true
  aofPath : Bytes := ascii "vortek.aof"
  logLevel : Bytes := ascii "info"
  logFormat : Bytes := ascii "plain"
  requirepass : Bytes := []
  maxRequestBytes : UInt64 := 1024 * 1024
  idleTimeoutSeconds : UInt64 := 300
  maxClients : UInt64 := 10000
  maxPendingWriteBytes : UInt64 := 1024 * 1024

/-- The numbers among the settings. -/
inductive NumericSetting where
  | port
  | maxRequestBytes
  | idleTimeoutSeconds
  | maxClients
  | maxPendingWriteBytes
  deriving DecidableEq, Repr

/-- The exceptions that end the start of the server. -/
inductive StartupError where
  | runtimeError (what : Bytes)
  | invalidArgument (what : Bytes)
  | outOfRange (what : Bytes)
  deriving DecidableEq, Repr

/-- A value in a TOML file, by what its accessors return. -/
structure TomlValue where
  int64? : Option Int64
  string? : Option Bytes
  bool? : Option Bool

/-- The values of a table by their keys. -/
abbrev TomlSection := Bytes → Option TomlValue

/-- The tables of a file by their names. -/
abbrev TomlTable := Bytes → Option TomlSection

/-- `toml::parse_file` by paths: a table or the description of an error. -/
abbrev ParseFile := Bytes → Except Bytes TomlTable

/-- What `parse_args` comes to. -/
inductive ArgsOutcome where
  | returns (cfg : Config)
  | exits
  | throws (error : StartupError)

namespace NumericSetting

/-- The option of the command line. -/
def flag : NumericSetting → Bytes
  | .port => ascii "--port"
  | .maxRequestBytes => ascii "--max-request-bytes"
  | .idleTimeoutSeconds => ascii "--idle-timeout-seconds"
  | .maxClients => ascii "--max-clients"
  | .maxPendingWriteBytes => ascii "--max-pending-write-bytes"

/-- The key in the table `server`. -/
def key : NumericSetting → Bytes
  | .port => ascii "port"
  | .maxRequestBytes => ascii "max_request_bytes"
  | .idleTimeoutSeconds => ascii "idle_timeout_seconds"
  | .maxClients => ascii "max_clients"
  | .maxPendingWriteBytes => ascii "max_pending_write_bytes"

/-- Assign a number, cast to the type of the member. -/
def assign (cfg : Config) (value : Int) : NumericSetting → Config
  | .port => { cfg with port := UInt16.ofInt value }
  | .maxRequestBytes => { cfg with maxRequestBytes := UInt64.ofInt value }
  | .idleTimeoutSeconds =>
      { cfg with idleTimeoutSeconds := UInt64.ofInt value }
  | .maxClients => { cfg with maxClients := UInt64.ofInt value }
  | .maxPendingWriteBytes =>
      { cfg with maxPendingWriteBytes := UInt64.ofInt value }

/-- The exception of a conversion; its text is the name of the function. -/
def conversionError (name : Bytes) : ConversionError → StartupError
  | .invalidArgument => .invalidArgument name
  | .outOfRange => .outOfRange name

/-- The number that an argument of the command line is converted to. -/
def convert (text : Bytes) : NumericSetting → Except StartupError Int
  | .port => (stoi text).mapError (conversionError (ascii "stoi"))
  | _ =>
      ((stoull text).map fun value => (value.toNat : Int)).mapError
        (conversionError (ascii "stoull"))

end NumericSetting

/-- `if (auto v = …) …` for an optional value of the file. -/
def whenGiven
    {Value : Type}
    (given : Option Value)
    (assign : Config → Value → Config)
    (cfg : Config) :
    Config :=
  match given with
  | none => cfg
  | some value => assign cfg value

namespace TomlSection

/-- `table[key].value<int64_t>()`. -/
def int64? (table : TomlSection) (key : Bytes) : Option Int64 :=
  (table key).bind TomlValue.int64?

/-- `table[key].value<std::string>()`. -/
def string? (table : TomlSection) (key : Bytes) : Option Bytes :=
  (table key).bind TomlValue.string?

/-- `table[key].value<bool>()`. -/
def bool? (table : TomlSection) (key : Bytes) : Option Bool :=
  (table key).bind TomlValue.bool?

/-- A number of the table `server`. -/
def number
    (table : TomlSection)
    (setting : NumericSetting) :
    Config → Config :=
  whenGiven (table.int64? setting.key) fun cfg value =>
    setting.assign cfg value.toInt

/-- The table `server`. -/
def server (table : TomlSection) (cfg : Config) : Config :=
  let cfg := table.number .port cfg
  let cfg :=
    whenGiven (table.string? (ascii "log_level"))
      (fun cfg value => { cfg with logLevel := value }) cfg
  let cfg :=
    whenGiven (table.string? (ascii "log_format"))
      (fun cfg value => { cfg with logFormat := value }) cfg
  let cfg := table.number .maxRequestBytes cfg
  let cfg := table.number .idleTimeoutSeconds cfg
  let cfg := table.number .maxClients cfg
  table.number .maxPendingWriteBytes cfg

/-- The table `security`. -/
def security (table : TomlSection) (cfg : Config) : Config :=
  whenGiven (table.string? (ascii "requirepass"))
    (fun cfg value => { cfg with requirepass := value }) cfg

/-- The table `persistence`. -/
def persistence (table : TomlSection) (cfg : Config) : Config :=
  let cfg :=
    whenGiven (table.bool? (ascii "aof_enabled"))
      (fun cfg value => { cfg with aofEnabled := value }) cfg
  whenGiven (table.string? (ascii "aof_path"))
    (fun cfg value => { cfg with aofPath := value }) cfg

end TomlSection

/-- The settings of a file that has been parsed. -/
def TomlTable.settings (table : TomlTable) (base : Config) : Config :=
  let cfg :=
    whenGiven (table (ascii "server")) (fun cfg found => found.server cfg)
      base
  let cfg :=
    whenGiven (table (ascii "security"))
      (fun cfg found => found.security cfg) cfg
  whenGiven (table (ascii "persistence"))
    (fun cfg found => found.persistence cfg) cfg

/-- `load_config_file` -/
def loadConfigFile
    (parseFile : ParseFile)
    (path : Bytes)
    (base : Config) :
    Except StartupError Config :=
  match parseFile path with
  | .error description =>
      .error (.runtimeError
        (ascii "TOML parse error in '" ++ path ++ ascii "': " ++
          description))
  | .ok table => .ok (table.settings base)

/-- The first pass: the file of the last `--config`. -/
def findConfig : Option Bytes → List Bytes → Option Bytes
  | path, [] => path
  | path, [_] => path
  | path, arg :: next :: rest =>
      if arg = ascii "--config" then
        findConfig (some next) rest
      else
        findConfig path (next :: rest)

/-- The branches of the second pass. -/
inductive CliOption where
  | config
  | numeric (setting : NumericSetting)
  | text (assign : Config → Bytes → Config)
  | noAof
  | help
  | unknown

/-- The comparisons of the second pass, in their order. -/
def cliOption (arg : Bytes) : CliOption :=
  if arg = ascii "--config" then
    .config
  else if arg = ascii "--port" then
    .numeric .port
  else if arg = ascii "--aof" then
    .text fun cfg value => { cfg with aofPath := value, aofEnabled := true }
  else if arg = ascii "--no-aof" then
    .noAof
  else if arg = ascii "--requirepass" then
    .text fun cfg value => { cfg with requirepass := value }
  else if arg = ascii "--log-level" then
    .text fun cfg value => { cfg with logLevel := value }
  else if arg = ascii "--log-format" then
    .text fun cfg value => { cfg with logFormat := value }
  else if arg = ascii "--max-request-bytes" then
    .numeric .maxRequestBytes
  else if arg = ascii "--idle-timeout-seconds" then
    .numeric .idleTimeoutSeconds
  else if arg = ascii "--max-clients" then
    .numeric .maxClients
  else if arg = ascii "--max-pending-write-bytes" then
    .numeric .maxPendingWriteBytes
  else if arg = ascii "--help" ∨ arg = ascii "-h" then
    .help
  else
    .unknown

/-- The second pass: the options override what has been loaded. -/
def applyArgs : Config → List Bytes → ArgsOutcome
  | cfg, [] => .returns cfg
  | cfg, arg :: rest =>
      match cliOption arg, rest with
      | .config, [] => .returns cfg
      | .config, _ :: later => applyArgs cfg later
      | .numeric _, [] =>
          .throws (.runtimeError (arg ++ ascii " requires an argument"))
      | .numeric setting, text :: later =>
          match setting.convert text with
          | .error error => .throws error
          | .ok value => applyArgs (setting.assign cfg value) later
      | .text _, [] =>
          .throws (.runtimeError (arg ++ ascii " requires an argument"))
      | .text assign, text :: later => applyArgs (assign cfg text) later
      | .noAof, rest => applyArgs { cfg with aofEnabled := false } rest
      | .help, _ => .exits
      | .unknown, _ =>
          .throws (.runtimeError (ascii "unknown option: " ++ arg))

/-- `parse_args` on the arguments behind the name of the program. -/
def parseArgs (parseFile : ParseFile) (args : List Bytes) : ArgsOutcome :=
  match findConfig none args with
  | none => applyArgs {} args
  | some path =>
      match loadConfigFile parseFile path {} with
      | .error error => .throws error
      | .ok cfg => applyArgs cfg args

/-- What the constructor of `Server` keeps for its connections. -/
def Config.serverConfig (cfg : Config) : ServerConfig where
  requirepass := cfg.requirepass
  maxRequestBytes := cfg.maxRequestBytes.toNat
  idleTimeoutSeconds := cfg.idleTimeoutSeconds.toNat
  maxClients := cfg.maxClients.toNat
  maxPendingWriteBytes := cfg.maxPendingWriteBytes.toNat

/-- A number among the settings. -/
def Config.number (cfg : Config) : NumericSetting → Int
  | .port => cfg.port.toNat
  | .maxRequestBytes => cfg.maxRequestBytes.toNat
  | .idleTimeoutSeconds => cfg.idleTimeoutSeconds.toNat
  | .maxClients => cfg.maxClients.toNat
  | .maxPendingWriteBytes => cfg.maxPendingWriteBytes.toNat

namespace NumericSetting

/-- How many numbers the type of the member has. -/
def width : NumericSetting → Int
  | .port => 2 ^ 16
  | _ => 2 ^ 64

/-- The numbers below it survive all casts on the way to their use. -/
def limit : NumericSetting → Int
  | .maxClients => 2 ^ 63
  | setting => setting.width

/-- The arguments given for a setting on the command line, in order. -/
def occurrences (setting : NumericSetting) : List Bytes → List Bytes
  | [] => []
  | arg :: rest =>
      match cliOption arg, rest with
      | .config, [] => []
      | .config, _ :: later => occurrences setting later
      | .numeric _, [] => []
      | .numeric found, text :: later =>
          if found = setting then
            text :: occurrences setting later
          else
            occurrences setting later
      | .text _, [] => []
      | .text _, _ :: later => occurrences setting later
      | _, rest => occurrences setting rest

/-- The number that a file has for a setting. -/
def inFile? (setting : NumericSetting) (table : TomlTable) : Option Int64 :=
  (table (ascii "server")).bind fun server => server.int64? setting.key

/--
The integer written for a setting: in its last occurrence on the command line,
else in the file, else by default.
-/
def Written
    (setting : NumericSetting)
    (args : List Bytes)
    (file : Option TomlTable)
    (value : Int) :
    Prop :=
  match (setting.occurrences args).getLast? with
  | some text => IntegerText text value
  | none =>
      match file.bind setting.inFile? with
      | some number => value = number.toInt
      | none => value = ({} : Config).number setting

end NumericSetting

/-- The file that the command line names, if it can be parsed. -/
def configTable
    (parseFile : ParseFile)
    (args : List Bytes) :
    Option TomlTable :=
  (findConfig none args).bind fun path => (parseFile path).toOption

/--
The settings mean what was written: each number is the integer written for it,
and a client is admitted if and only if there are fewer than the integer written
for the limit on them.
-/
structure Config.MeansWritten
    (cfg : Config)
    (args : List Bytes)
    (file : Option TomlTable) :
    Prop where
  settings :
    ∀ setting : NumericSetting,
      setting.Written args file (cfg.number setting)
  admission :
    ∀ limit,
      NumericSetting.maxClients.Written args file limit →
      ∀ (loop : EventLoop) (id : Nat),
        loop.sessions.lookup id = none →
        (((loop.accept cfg.serverConfig id).sessions.lookup id).isSome ↔
          loop.server.backend.stats.connectedClients.toInt < limit)

section Casts

theorem toNat_ofInt16
    (value : Int) :
    ((UInt16.ofInt value).toNat : Int) = value % 2 ^ 16 := by
  have reduced :
      (UInt16.ofInt value).toNat = (value % 2 ^ 16).toNat % 2 ^ 16 :=
    rfl
  omega

theorem toNat_ofInt64
    (value : Int) :
    ((UInt64.ofInt value).toNat : Int) = value % 2 ^ 64 := by
  have reduced :
      (UInt64.ofInt value).toNat = (value % 2 ^ 64).toNat % 2 ^ 64 :=
    rfl
  omega

/-- A number is in the range of its type. -/
theorem Config.number_nonneg_lt
    (cfg : Config)
    (setting : NumericSetting) :
    0 ≤ cfg.number setting ∧ cfg.number setting < setting.width := by
  cases setting with
  | port =>
      exact ⟨Int.natCast_nonneg _, Int.ofNat_lt.mpr cfg.port.toNat_lt⟩
  | maxRequestBytes | idleTimeoutSeconds | maxClients
    | maxPendingWriteBytes =>
      exact ⟨Int.natCast_nonneg _, Int.ofNat_lt.mpr (UInt64.toNat_lt _)⟩

/-- An assignment changes its own setting, to the number modulo the width. -/
theorem NumericSetting.number_assign_self
    (setting : NumericSetting)
    (cfg : Config)
    (value : Int) :
    (setting.assign cfg value).number setting = value % setting.width := by
  cases setting with
  | port =>
      exact toNat_ofInt16 value
  | maxRequestBytes | idleTimeoutSeconds | maxClients
    | maxPendingWriteBytes =>
      exact toNat_ofInt64 value

theorem NumericSetting.number_assign_of_ne
    {setting other : NumericSetting}
    (different : setting ≠ other)
    (cfg : Config)
    (value : Int) :
    (setting.assign cfg value).number other = cfg.number other := by
  cases setting <;> cases other <;>
    first
    | rfl
    | exact absurd rfl different

end Casts

section Loading

variable {setting : NumericSetting}

theorem number_whenGiven
    {Value : Type}
    {given : Option Value}
    {assign : Config → Value → Config}
    (keeps :
      ∀ cfg value,
        (assign cfg value).number setting = cfg.number setting)
    (cfg : Config) :
    (whenGiven given assign cfg).number setting = cfg.number setting := by
  cases given with
  | none =>
      rfl
  | some value =>
      exact keeps cfg value

/-- A number of the file, or what was there before. -/
def TomlSection.read
    (table : TomlSection)
    (setting : NumericSetting)
    (before : Int) :
    Int :=
  match table.int64? setting.key with
  | none => before
  | some value => value.toInt % setting.width

theorem TomlSection.number_number_self
    (table : TomlSection)
    (cfg : Config) :
    (table.number setting cfg).number setting =
      table.read setting (cfg.number setting) := by
  unfold number read whenGiven
  cases table.int64? setting.key with
  | none =>
      rfl
  | some value =>
      exact setting.number_assign_self cfg value.toInt

theorem TomlSection.number_number_of_ne
    (table : TomlSection)
    {other : NumericSetting}
    (different : other ≠ setting)
    (cfg : Config) :
    (table.number other cfg).number setting = cfg.number setting := by
  unfold number
  apply number_whenGiven
  intro cfg value
  exact NumericSetting.number_assign_of_ne different cfg value.toInt

/-- The table `server` has one entry for each number. -/
theorem TomlSection.number_server
    (table : TomlSection)
    (cfg : Config) :
    (table.server cfg).number setting =
      table.read setting (cfg.number setting) := by
  have logLevel (cfg : Config) :
      (whenGiven (table.string? (ascii "log_level"))
        (fun cfg value => { cfg with logLevel := value })
        cfg).number setting = cfg.number setting :=
    number_whenGiven (fun cfg value => by cases setting <;> rfl) cfg
  have logFormat (cfg : Config) :
      (whenGiven (table.string? (ascii "log_format"))
        (fun cfg value => { cfg with logFormat := value })
        cfg).number setting = cfg.number setting :=
    number_whenGiven (fun cfg value => by cases setting <;> rfl) cfg
  have others (other : NumericSetting) (different : other ≠ setting) :=
    table.number_number_of_ne different
  cases setting <;>
    simp [server, logLevel, logFormat, number_number_self, others]

/-- The other tables have no numbers. -/
theorem TomlTable.number_settings
    (table : TomlTable)
    (base : Config) :
    (table.settings base).number setting =
      match setting.inFile? table with
      | none => base.number setting
      | some value => value.toInt % setting.width := by
  have security (cfg : Config) :
      (whenGiven (table (ascii "security"))
        (fun cfg found => found.security cfg) cfg).number setting =
        cfg.number setting :=
    number_whenGiven
      (fun cfg found =>
        number_whenGiven (fun cfg value => by cases setting <;> rfl) cfg)
      cfg
  have persistence (cfg : Config) :
      (whenGiven (table (ascii "persistence"))
        (fun cfg found => found.persistence cfg) cfg).number setting =
        cfg.number setting := by
    refine number_whenGiven (fun cfg found => ?_) cfg
    refine (number_whenGiven
      (fun cfg value => by cases setting <;> rfl) _).trans ?_
    exact number_whenGiven (fun cfg value => by cases setting <;> rfl) cfg
  rw [settings, persistence, security]
  unfold NumericSetting.inFile? whenGiven
  cases table (ascii "server") with
  | none =>
      rfl
  | some server =>
      exact server.number_server base

end Loading

section Overriding

variable {setting : NumericSetting}

/-- A setting behind its arguments: the last one converted, or unchanged. -/
def NumericSetting.Follows
    (setting : NumericSetting)
    (texts : List Bytes)
    (before after : Config) :
    Prop :=
  match texts.getLast? with
  | none => after.number setting = before.number setting
  | some text =>
      ∃ value,
        setting.convert text = .ok value ∧
          after.number setting = value % setting.width

/-- What another option does to the settings in front does not matter. -/
theorem NumericSetting.Follows.of_number
    {texts : List Bytes}
    {before other after : Config}
    (follows : setting.Follows texts before after)
    (same : before.number setting = other.number setting) :
    setting.Follows texts other after := by
  unfold Follows at follows ⊢
  cases last : texts.getLast? with
  | none =>
      rw [last] at follows
      exact follows.trans same
  | some text =>
      rw [last] at follows
      exact follows

/-- An argument counts if there is no later one. -/
theorem NumericSetting.Follows.cons
    {text : Bytes}
    {texts : List Bytes}
    {before after : Config}
    {value : Int}
    (converted : setting.convert text = .ok value)
    (follows :
      setting.Follows texts (setting.assign before value) after) :
    setting.Follows (text :: texts) before after := by
  unfold Follows at follows ⊢
  cases texts with
  | nil =>
      exact ⟨value, converted,
        follows.trans (setting.number_assign_self before value)⟩
  | cons next later =>
      rw [List.getLast?_cons_cons]
      rw [List.getLast?_cons] at follows ⊢
      exact follows

/-- An option with a text is about other settings than the numbers. -/
def CliOption.KeepsNumbers : CliOption → Prop
  | .text assign =>
      ∀ cfg text setting,
        (assign cfg text).number setting = cfg.number setting
  | _ => True

theorem keepsNumbers_cliOption
    (arg : Bytes) :
    (cliOption arg).KeepsNumbers := by
  unfold cliOption
  repeat'
    refine iteInduction (motive := CliOption.KeepsNumbers)
      (fun _ => ?_) (fun _ => ?_)
  all_goals
    first
    | exact True.intro
    | intro cfg text setting
      cases setting <;> rfl

/-- What the command line makes of a setting. -/
theorem follows_of_applyArgs
    {cfg final : Config}
    {args : List Bytes}
    (accepted : applyArgs cfg args = .returns final) :
    setting.Follows (setting.occurrences args) cfg final := by
  fun_induction applyArgs cfg args with
  | case1 cfg =>
      cases accepted
      exact rfl
  | case2 cfg arg option =>
      cases accepted
      unfold NumericSetting.occurrences
      simp only [option]
      exact rfl
  | case3 cfg arg path later option inductionHypothesis =>
      unfold NumericSetting.occurrences
      simp only [option]
      exact inductionHypothesis accepted
  | case6 cfg arg found text later option value converted
      inductionHypothesis =>
      unfold NumericSetting.occurrences
      simp only [option]
      have follows := inductionHypothesis accepted
      by_cases same : found = setting
      · subst same
        rw [if_pos rfl]
        exact .cons converted follows
      · rw [if_neg same]
        exact follows.of_number
          (NumericSetting.number_assign_of_ne same cfg value)
  | case8 cfg arg assign text later option inductionHypothesis =>
      unfold NumericSetting.occurrences
      simp only [option]
      have keeps := keepsNumbers_cliOption arg
      rw [option] at keeps
      exact (inductionHypothesis accepted).of_number
        (keeps cfg text setting)
  | case9 cfg arg rest option inductionHypothesis =>
      unfold NumericSetting.occurrences
      simp only [option]
      exact (inductionHypothesis accepted).of_number
        (by cases setting <;> rfl)
  | case4 | case5 | case7 | case10 | case11 =>
      cases accepted

/-- The settings that the command line overrides are those of the file. -/
theorem exists_applyArgs_of_parseArgs
    {parseFile : ParseFile}
    {args : List Bytes}
    {cfg : Config}
    (accepted : parseArgs parseFile args = .returns cfg) :
    ∃ base,
      applyArgs base args = .returns cfg ∧
        ∀ setting : NumericSetting,
          base.number setting =
            match (configTable parseFile args).bind setting.inFile? with
            | none => ({} : Config).number setting
            | some value => value.toInt % setting.width := by
  unfold parseArgs at accepted
  unfold configTable
  cases named : findConfig none args with
  | none =>
      simp only [named] at accepted
      exact ⟨{}, accepted, fun setting => rfl⟩
  | some path =>
      simp only [named, loadConfigFile] at accepted
      cases file : parseFile path with
      | error description =>
          simp only [file] at accepted
          cases accepted
      | ok table =>
          simp only [file] at accepted
          refine ⟨_, accepted, fun setting => ?_⟩
          simp only [Option.bind_some, file, Except.toOption]
          exact table.number_settings {}

end Overriding

section Meaning

variable {setting : NumericSetting}

theorem NumericSetting.limit_of_ne
    (setting : NumericSetting)
    (other : setting ≠ .maxClients) :
    setting.limit = setting.width := by
  cases setting with
  | maxClients =>
      exact absurd rfl other
  | port | maxRequestBytes | idleTimeoutSeconds
    | maxPendingWriteBytes =>
      rfl

theorem NumericSetting.limit_le_width
    (setting : NumericSetting) :
    setting.limit ≤ setting.width := by
  by_cases clients : setting = .maxClients
  · subst clients
    decide
  · rw [setting.limit_of_ne clients]

/-- Only one integer is written for a setting. -/
theorem NumericSetting.Written.unique
    {args : List Bytes}
    {file : Option TomlTable}
    {first second : Int}
    (written : setting.Written args file first)
    (again : setting.Written args file second) :
    first = second := by
  unfold Written at written again
  cases last : (setting.occurrences args).getLast? with
  | some text =>
      simp only [last] at written again
      exact written.unique again
  | none =>
      simp only [last] at written again
      cases given : file.bind setting.inFile? with
      | none | some number =>
          simp only [given] at written again
          exact written.trans again.symm

/-- An integer in the range of a port is converted to itself. -/
theorem NumericSetting.convert_port_of_integerText
    {text : Bytes}
    {written value : Int}
    (integer : IntegerText text written)
    (converted : NumericSetting.port.convert text = .ok value)
    (nonnegative : 0 ≤ written)
    (small : written < 2 ^ 16) :
    value % 2 ^ 16 = written := by
  simp only [convert] at converted
  cases number : stoi text with
  | error error =>
      rw [number] at converted
      cases converted
  | ok found =>
      rw [number] at converted
      cases converted
      obtain rfl := stoi_of_integerText integer number
      exact Int.emod_eq_of_lt nonnegative small

/-- An integer in the range of a size is converted to itself. -/
theorem NumericSetting.convert_size_of_integerText
    {text : Bytes}
    {written value : Int}
    (integer : IntegerText text written)
    (converted :
      ((stoull text).map fun found => (found.toNat : Int)).mapError
          (conversionError (ascii "stoull")) =
        .ok value)
    (nonnegative : 0 ≤ written)
    (small : written < 2 ^ 64) :
    value % 2 ^ 64 = written := by
  cases number : stoull text with
  | error error =>
      rw [number] at converted
      cases converted
  | ok found =>
      rw [number] at converted
      cases converted
      change (found.toNat : Int) % 2 ^ 64 = written
      rw [stoull_of_integerText integer number, toNat_ofInt64,
        Int.emod_emod]
      exact Int.emod_eq_of_lt nonnegative small

/-- An integer in range is converted to itself. -/
theorem NumericSetting.convert_of_integerText
    {text : Bytes}
    {written value : Int}
    (integer : IntegerText text written)
    (converted : setting.convert text = .ok value)
    (nonnegative : 0 ≤ written)
    (small : written < setting.width) :
    value % setting.width = written := by
  cases setting with
  | port =>
      exact convert_port_of_integerText integer converted nonnegative
        small
  | maxRequestBytes | idleTimeoutSeconds | maxClients
    | maxPendingWriteBytes =>
      exact convert_size_of_integerText integer converted nonnegative
        small

/-- A number is the written integer exactly if that is in range. -/
theorem written_number_iff
    {parseFile : ParseFile}
    {args : List Bytes}
    {cfg : Config}
    (accepted : parseArgs parseFile args = .returns cfg) :
    setting.Written args (configTable parseFile args)
        (cfg.number setting) ↔
      ∃ value,
        setting.Written args (configTable parseFile args) value ∧
          0 ≤ value ∧ value < setting.width := by
  constructor
  · intro written
    exact ⟨_, written, cfg.number_nonneg_lt setting⟩
  · rintro ⟨value, written, nonnegative, small⟩
    obtain ⟨base, applied, loaded⟩ :=
      exists_applyArgs_of_parseArgs accepted
    have follows : setting.Follows (setting.occurrences args) base cfg :=
      follows_of_applyArgs applied
    have fromFile := loaded setting
    unfold NumericSetting.Written at written ⊢
    unfold NumericSetting.Follows at follows
    cases last : (setting.occurrences args).getLast? with
    | some text =>
        simp only [last] at written follows ⊢
        obtain ⟨number, converted, same⟩ := follows
        have kept :=
          NumericSetting.convert_of_integerText written converted
            nonnegative small
        rwa [same, kept]
    | none =>
        simp only [last] at written follows ⊢
        rw [follows, fromFile]
        cases given :
          (configTable parseFile args).bind setting.inFile? with
        | none =>
            rfl
        | some number =>
            simp only [given] at written ⊢
            rw [← written]
            exact Int.emod_eq_of_lt nonnegative small

/-- A new client is admitted if the limit as `int64_t` is not reached. -/
theorem EventLoop.isSome_lookup_accept_iff
    (config : ServerConfig)
    {loop : EventLoop}
    {id : Nat}
    (free : loop.sessions.lookup id = none) :
    ((loop.accept config id).sessions.lookup id).isSome ↔
      ¬toInt64 config.maxClients ≤
        loop.server.backend.stats.connectedClients := by
  have unknown : ¬(loop.sessions.lookup id).isSome = true := by
    rw [free]
    decide
  unfold accept
  rw [if_neg unknown]
  by_cases reached :
    toInt64 config.maxClients ≤
      loop.server.backend.stats.connectedClients
  · rw [if_pos reached]
    exact iff_of_false unknown (not_not_intro reached)
  · rw [if_neg reached]
    refine iff_of_true ?_ reached
    simp only [addClient, AList.lookup_insert, Option.isSome_some]

/-- A limit from `2 ^ 63` on is negative where it is compared. -/
theorem toInt_toInt64_neg
    {size : Nat}
    (large : 2 ^ 63 ≤ size)
    (fits : size < 2 ^ 64) :
    (toInt64 size).toInt < 0 := by
  have words : Int64.size = 2 ^ 64 :=
    rfl
  rw [toInt64, Int64.toInt_ofInt, Int.bmod_def, words]
  split <;> omega

/-- The comparison with the number of clients is exact below `2 ^ 63` only. -/
theorem admission_iff
    (cfg : Config) :
    (∀ (loop : EventLoop) (id : Nat),
        loop.sessions.lookup id = none →
        (((loop.accept cfg.serverConfig id).sessions.lookup id).isSome ↔
          loop.server.backend.stats.connectedClients.toInt <
            cfg.number .maxClients)) ↔
      cfg.number .maxClients < 2 ^ 63 := by
  have size : cfg.maxClients.toNat < 2 ^ 64 := cfg.maxClients.toNat_lt
  have number : cfg.number .maxClients = cfg.maxClients.toNat :=
    rfl
  rw [number]
  constructor
  · intro admits
    by_contra large
    have negative :=
      toInt_toInt64_neg (by omega : 2 ^ 63 ≤ cfg.maxClients.toNat) size
    -- A server without clients refuses the first one.
    let idle : EventLoop := ⟨⟨Backend.initial, none⟩, ∅, [], []⟩
    have nobody : idle.server.backend.stats.connectedClients.toInt = 0 :=
      rfl
    have admitted := (admits idle 0 rfl).mpr (by omega)
    rw [EventLoop.isSome_lookup_accept_iff cfg.serverConfig rfl,
      Int64.le_iff_toInt_le, nobody] at admitted
    exact admitted (Int.le_of_lt negative)
  · intro small loop id free
    have kept : (toInt64 cfg.maxClients.toNat).toInt = _ :=
      toInt_toInt64 (by omega)
    rw [EventLoop.isSome_lookup_accept_iff cfg.serverConfig free,
      Int64.le_iff_toInt_le]
    change ¬(toInt64 cfg.maxClients.toNat).toInt ≤ _ ↔ _
    rw [kept, Int.not_le]

end Meaning

/--
The settings of an accepted command line and file mean what was written exactly
if an integer is written for each of them, and it is not negative, below
`2 ^ 16` for the port and below `2 ^ 63` for the limit on clients.  Any other
number that is not negative and not refused is below `2 ^ 64`.
-/
theorem Config.meansWritten_iff
    (parseFile : ParseFile)
    (args : List Bytes)
    (cfg : Config)
    (accepted : parseArgs parseFile args = .returns cfg) :
    cfg.MeansWritten args (configTable parseFile args) ↔
      ∀ setting : NumericSetting,
        ∃ value,
          setting.Written args (configTable parseFile args) value ∧
            0 ≤ value ∧ value < setting.limit := by
  constructor
  · intro means setting
    have bounds := cfg.number_nonneg_lt setting
    refine ⟨_, means.settings setting, bounds.1, ?_⟩
    by_cases clients : setting = .maxClients
    · subst clients
      exact (admission_iff cfg).mp
        (means.admission _ (means.settings .maxClients))
    · rw [setting.limit_of_ne clients]
      exact bounds.2
  · intro inRange
    have settings (setting : NumericSetting) :
        setting.Written args (configTable parseFile args)
          (cfg.number setting) := by
      obtain ⟨value, written, nonnegative, small⟩ := inRange setting
      exact (written_number_iff accepted).mpr
        ⟨value, written, nonnegative,
          Int.lt_of_lt_of_le small setting.limit_le_width⟩
    refine ⟨settings, ?_⟩
    intro limit written
    obtain ⟨value, sameWritten, -, small⟩ := inRange .maxClients
    have first := written.unique (settings .maxClients)
    have second := sameWritten.unique (settings .maxClients)
    rw [first]
    rw [second] at small
    exact (admission_iff cfg).mpr small

/-- A port in the file and a limit on the command line. -/
theorem Config.meansWritten_port_and_clients :
    let server : TomlSection := fun key =>
      if key = ascii "port" then some ⟨some 7000, none, none⟩ else none
    let table : TomlTable := fun name =>
      if name = ascii "server" then some server else none
    let args :=
      [ascii "--config", ascii "vortek.toml", ascii "--max-clients",
        ascii "64"]
    let cfg : Config := { port := 7000, maxClients := 64 }
    parseArgs (fun _ => .ok table) args = .returns cfg ∧
      cfg.MeansWritten args (some table) := by
  intro server table args cfg
  have accepted : parseArgs (fun _ => .ok table) args = .returns cfg :=
    rfl
  refine ⟨accepted, ?_⟩
  refine (meansWritten_iff (fun _ => .ok table) args cfg accepted).mpr ?_
  have digits :
      IntegerText ([] ++ ([] ++ (ascii "64" ++ [])))
        (signedValue false (ascii "64")) :=
    .intro (by simp) .absent (by decide) (List.all_eq_true.mp rfl)
      (by simp)
  intro setting
  cases setting with
  | port =>
      exact ⟨7000, rfl, by decide, by decide⟩
  | maxRequestBytes =>
      exact ⟨1048576, rfl, by decide, by decide⟩
  | idleTimeoutSeconds =>
      exact ⟨300, rfl, by decide, by decide⟩
  | maxClients =>
      exact ⟨64, digits, by decide, by decide⟩
  | maxPendingWriteBytes =>
      exact ⟨1048576, rfl, by decide, by decide⟩

/-- A limit of minus one is taken for a large one and refuses everybody. -/
theorem Config.refuses_everybody_at_minus_one :
    let args := [ascii "--max-clients", ascii "-1"]
    let cfg : Config := { maxClients := 18446744073709551615 }
    let idle : EventLoop := ⟨⟨Backend.initial, none⟩, ∅, [], []⟩
    parseArgs (fun _ => .error []) args = .returns cfg ∧
      (idle.accept cfg.serverConfig 0).sessions.lookup 0 = none ∧
      ¬cfg.MeansWritten args none := by
  intro args cfg idle
  refine ⟨rfl, rfl, ?_⟩
  intro means
  have written : IntegerText (ascii "-1") 18446744073709551615 :=
    means.settings .maxClients
  obtain ⟨negative, digits, subject, value⟩ :=
    subject?_of_integerText written
  have read : subject? (ascii "-1") = some (true, ascii "1") :=
    rfl
  rw [read] at subject
  cases subject
  revert value
  decide

end Vortek
