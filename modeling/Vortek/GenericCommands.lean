import Vortek.Command

namespace Vortek

open CallScript DecimalText

/-!
# Generic commands

The handlers of `generic_cmds.cpp`, and PUBLISH of `pubsub_cmds.cpp`.  METRICS
prints a rate that the source computes in `double`; the conversion, the division
and the printing with six decimals are modelled by rounding to nearest, ties to
even.
-/

section Rates

/-- The natural number nearest to `num / den`, ties to even. -/
def roundHalfEven (num den : Nat) : Nat :=
  let quotient := num / den
  let twice := 2 * (num % den)
  if twice < den then
    quotient
  else if den < twice then
    quotient + 1
  else
    quotient + quotient % 2

/-- `num / (den * 2 ^ exponent)` as a fraction. -/
def scaleDown (num den : Nat) (exponent : Int) : Nat × Nat :=
  if 0 ≤ exponent then
    (num, den * 2 ^ exponent.toNat)
  else
    (num * 2 ^ (-exponent).toNat, den)

/-- A nonnegative `double`: `mantissa * 2 ^ exponent`. -/
structure Double where
  mantissa : Nat
  exponent : Int

namespace Double

/-- The double nearest to `num / den`, with 53 bits of mantissa. -/
def ofRatio (num den : Nat) : Double :=
  let high : Int := num.log2 - den.log2 - 52
  let scaled := scaleDown num den high
  let exponent := if scaled.1 < scaled.2 * 2 ^ 52 then high - 1 else high
  let fraction := scaleDown num den exponent
  if num = 0 then
    ⟨0, 0⟩
  else
    ⟨roundHalfEven fraction.1 fraction.2, exponent⟩

/-- The exact value as a fraction. -/
def ratio (value : Double) : Nat × Nat :=
  scaleDown value.mantissa 1 (-value.exponent)

/-- The quotient of two doubles. -/
def div (first second : Double) : Double :=
  ofRatio (first.ratio.1 * second.ratio.2)
    (first.ratio.2 * second.ratio.1)

/-- `std::to_string(value)`: six decimals. -/
def text (value : Double) : Bytes :=
  let micros := roundHalfEven (value.ratio.1 * 1000000) value.ratio.2
  let decimals := decimalDigits (micros % 1000000)
  decimalDigits (micros / 1000000) ++ ascii "." ++
    List.replicate (6 - decimals.length) 48 ++ decimals

end Double

/-- The commands per second of METRICS; `uptime` is positive. -/
def rateText (total uptime : Int64) : Bytes :=
  let quotient :=
    (Double.ofRatio total.toInt.natAbs 1).div
      (Double.ofRatio uptime.toInt.natAbs 1)
  (if total < 0 then ascii "-" else []) ++ quotient.text

example : rateText 7 2 = ascii "3.500000" := by decide

end Rates

/-- PING [message]. -/
def cmdPing : Handler := fun cmd =>
  match cmd.args with
  | [] => return .simpleString (ascii "PONG")
  | [message] => return .bulkString message
  | _ => return wrongArgs cmd.name

/-- The loop of DEL. -/
def delKeys : List Bytes → Program Int64
  | [] => return 0
  | key :: later => do
      let count ← Program.del key
      let rest ← delKeys later
      return count + rest

/-- DEL key [key ...]. -/
def cmdDel : Handler := fun cmd =>
  if cmd.args.isEmpty then
    return wrongArgs cmd.name
  else do
    let count ← delKeys cmd.args
    return .integer count

/-- The loop of EXISTS. -/
def countExisting : List Bytes → Program Int64
  | [] => return 0
  | key :: later => do
      let present ← Program.exists? key
      let rest ← countExisting later
      return (if present then 1 else 0) + rest

/-- EXISTS key [key ...]. -/
def cmdExists : Handler := fun cmd =>
  if cmd.args.isEmpty then
    return wrongArgs cmd.name
  else do
    let count ← countExisting cmd.args
    return .integer count

/-- EXPIRE key seconds. -/
def cmdExpire : Handler := fun cmd =>
  match cmd.args with
  | [key, amount] =>
      match wholeInt64? amount with
      | none => return notAnInteger
      | some secs =>
          if secs < 0 then
            return notAnInteger
          else do
            let changed ← Program.expire key (secs * 1000)
            return .integer (if changed then 1 else 0)
  | _ => return wrongArgs cmd.name

/-- TTL key: whole seconds, rounded up. -/
def cmdTtl : Handler := fun cmd =>
  match cmd.args with
  | [key] => do
      let ms ← Program.ttl key
      if ms < 0 then
        return .integer ms
      else
        return .integer ((ms + 999) / 1000)
  | _ => return wrongArgs cmd.name

/-- PERSIST key. -/
def cmdPersist : Handler := fun cmd =>
  match cmd.args with
  | [key] => do
      let changed ← Program.persist key
      return .integer (if changed then 1 else 0)
  | _ => return wrongArgs cmd.name

/-- HEALTH. -/
def cmdHealth : Handler := fun cmd =>
  match cmd.args with
  | [] => return .simpleString (ascii "OK")
  | _ => return wrongArgs cmd.name

/-- READY, which depends on the flag that `run` and `shutdown` set. -/
def cmdReady : Handler := fun cmd =>
  match cmd.args with
  | [] => do
      let stats ← Program.stats
      if stats.ready then
        return .simpleString (ascii "READY")
      else
        return err "ERR server not ready"
  | _ => return wrongArgs cmd.name

/-- One line of METRICS. -/
def metric (name : String) (value : Bytes) : Bytes :=
  ascii name ++ ascii " " ++ value ++ ascii "\n"

/-- METRICS: Prometheus exposition text. -/
def cmdMetrics : Handler := fun cmd =>
  match cmd.args with
  | [] => do
      let stats ← Program.stats
      let uptime ← Program.uptimeSeconds
      let keys ← Program.size
      let memory ← Program.approxMemoryBytes
      return .bulkString <|
        metric "vortek_uptime_seconds" (stdToString uptime) ++
        metric "vortek_connected_clients"
          (stdToString stats.connectedClients) ++
        metric "vortek_total_commands_processed"
          (stdToString stats.totalCommands) ++
        metric "vortek_commands_per_second"
          (rateText stats.totalCommands (max 1 uptime)) ++
        metric "vortek_key_count" (decimalDigits keys) ++
        metric "vortek_memory_bytes_approx" (decimalDigits memory) ++
        metric "vortek_ready" (if stats.ready then ascii "1" else ascii "0")
  | _ => return wrongArgs cmd.name

/-- One line of INFO. -/
def infoLine (name : String) (value : Bytes) : Bytes :=
  ascii name ++ ascii ":" ++ value ++ crlf

/-- `section_server` of INFO. -/
def sectionServer : Program Bytes := do
  let uptime ← Program.uptimeSeconds
  let stats ← Program.stats
  return ascii "# Server\r\n" ++
    infoLine "vortek_version" (ascii "0.1.0") ++
    infoLine "tcp_port" (decimalDigits stats.port.toNat) ++
    infoLine "uptime_in_seconds" (stdToString uptime) ++
    infoLine "uptime_in_days" (stdToString (uptime / 86400)) ++
    infoLine "aof_enabled"
      (if stats.aofEnabled then ascii "1" else ascii "0")

/-- `section_clients` of INFO. -/
def sectionClients : Program Bytes := do
  let stats ← Program.stats
  return ascii "# Clients\r\n" ++
    infoLine "connected_clients" (stdToString stats.connectedClients)

/-- `section_stats` of INFO. -/
def sectionStats : Program Bytes := do
  let stats ← Program.stats
  return ascii "# Stats\r\n" ++
    infoLine "total_commands_processed" (stdToString stats.totalCommands)

/-- `section_keyspace` of INFO; without keys there is only its title. -/
def sectionKeyspace : Program Bytes := do
  let keys ← Program.size
  if keys = 0 then
    return ascii "# Keyspace\r\n"
  else
    return ascii "# Keyspace\r\n" ++
      ascii "db0:keys=" ++ decimalDigits keys ++ crlf

/-- `section == name || section == "all" || section == "everything"`. -/
def wantsSection (asked : Bytes) (name : String) : Bool :=
  decide (asked = ascii name) ||
    (decide (asked = ascii "all") || decide (asked = ascii "everything"))

/-- Append a section, with an empty line in front unless it is the first. -/
def appendSection
    (wanted : Bool)
    (part : Program Bytes)
    (body : Bytes) :
    Program Bytes :=
  if wanted then do
    let text ← part
    return if body.isEmpty then text else body ++ crlf ++ text
  else
    return body

/-- The sections asked for, in their fixed order. -/
def infoBody (asked : Bytes) : Program Bytes := do
  let body ← appendSection (wantsSection asked "server") sectionServer []
  let body ←
    appendSection (wantsSection asked "clients") sectionClients body
  let body ← appendSection (wantsSection asked "stats") sectionStats body
  appendSection (wantsSection asked "keyspace") sectionKeyspace body

/-- The error that quotes a section name as the client sent it. -/
def unknownSection (name : Bytes) : RespValue :=
  .error (ascii "ERR unknown INFO section '" ++ name ++ ascii "'")

/-- INFO for one section name; names are compared in lower case. -/
def infoReply (name : Bytes) : Program RespValue := do
  let body ← infoBody (lower name)
  if body.isEmpty then
    return unknownSection name
  else
    return .bulkString body

/-- INFO [section]. -/
def cmdInfo : Handler := fun cmd =>
  match cmd.args with
  | [] => infoReply (ascii "all")
  | [name] => infoReply name
  | _ => return err "ERR syntax error"

/-- PUBLISH channel message. -/
def cmdPublish : Handler := fun cmd =>
  match cmd.args with
  | [channel, message] => do
      let count ← Program.publish channel message
      return .integer count
  | _ => return err "ERR wrong number of arguments for 'publish' command"

section Loops

/-- DEL deletes the keys that it is given. -/
theorem always_delKeys
    {keys listed : List Bytes}
    (members : ∀ key ∈ keys, key ∈ listed) :
    (delKeys keys).Always
      (Call.Modifies listed) (fun _ => True) NoThrow := by
  induction keys with
  | nil =>
      trivial
  | cons key later inductionHypothesis =>
      have laterMembers :
          ∀ other ∈ later, other ∈ listed := fun other member =>
        members other (List.mem_cons_of_mem key member)
      exact Script.always_invoke_bind.mpr
        ⟨members key List.mem_cons_self, fun count =>
          (inductionHypothesis laterMembers).bind fun _ _ => trivial⟩

theorem always_countExisting
    {keys : List Bytes} :
    (countExisting keys).Always
      Call.Observes (fun _ => True) NoThrow := by
  induction keys with
  | nil =>
      trivial
  | cons key later inductionHypothesis =>
      exact Script.always_invoke_bind.mpr
        ⟨trivial, fun present =>
          inductionHypothesis.bind fun _ _ => trivial⟩

end Loops

section Info

/-- The section names that INFO knows. -/
def isInfoSection (name : Bytes) : Bool :=
  wantsSection name "server" || wantsSection name "clients" ||
    wantsSection name "stats" || wantsSection name "keyspace"

/-- INFO repeats the name of a section that it does not know. -/
@[simp] theorem lineSafe_unknownSection_iff
    {name : Bytes} :
    (unknownSection name).LineSafe ↔ CrlfFree name :=
  crlfFree_quoted_iff (by decide) (by decide) (by decide)

/-- A wanted section makes the body non-empty; nothing makes it empty. -/
theorem always_appendSection
    {wanted : Bool}
    {part : Program Bytes}
    {body : Bytes}
    (partSafe :
      part.Always Call.Observes (fun text => text ≠ []) NoThrow) :
    (appendSection wanted part body).Always
      Call.Observes
      (fun result => result ≠ [] ↔ body ≠ [] ∨ wanted = true)
      NoThrow := by
  unfold appendSection
  cases wanted with
  | false =>
      simp
  | true =>
      refine partSafe.bind fun text filled => ?_
      change (if body.isEmpty then text else body ++ crlf ++ text) ≠ [] ↔ _
      split <;> simp [filled]

/-- INFO has something to say exactly about the sections it knows. -/
theorem always_infoBody
    {asked : Bytes} :
    (infoBody asked).Always
      Call.Observes
      (fun body => body ≠ [] ↔ isInfoSection asked = true)
      NoThrow := by
  have server :
      sectionServer.Always Call.Observes (· ≠ []) NoThrow :=
    ⟨trivial, fun _ => ⟨trivial, fun _ => List.cons_ne_nil _ _⟩⟩
  have clients :
      sectionClients.Always Call.Observes (· ≠ []) NoThrow :=
    ⟨trivial, fun _ => List.cons_ne_nil _ _⟩
  have stats :
      sectionStats.Always Call.Observes (· ≠ []) NoThrow :=
    ⟨trivial, fun _ => List.cons_ne_nil _ _⟩
  have keyspace :
      sectionKeyspace.Always Call.Observes (· ≠ []) NoThrow := by
    refine Script.always_invoke_bind.mpr ⟨trivial, fun keys => ?_⟩
    split
    · exact List.cons_ne_nil _ _
    · exact List.cons_ne_nil _ _
  refine (always_appendSection server).bind
    fun first firstFilled => ?_
  refine (always_appendSection clients).bind
    fun second secondFilled => ?_
  refine (always_appendSection stats).bind
    fun third thirdFilled => ?_
  refine (always_appendSection keyspace).imp
    fun last lastFilled => ?_
  rw [lastFilled, thirdFilled, secondFilled, firstFilled]
  simp [isInfoSection, or_assoc]

/-- INFO quotes a section it does not know and otherwise sends a text. -/
theorem always_infoReply
    {name : Bytes} :
    (infoReply name).Always
      Call.Observes
      (fun reply =>
        if isInfoSection (lower name) then
          reply.LineSafe
        else
          reply = unknownSection name)
      NoThrow := by
  refine always_infoBody.bind fun body filled => ?_
  cases known : isInfoSection (lower name) with
  | false =>
      have empty : body = [] := by
        simpa [known] using filled
      subst empty
      rfl
  | true =>
      have full : body ≠ [] := filled.mpr known
      cases body with
      | nil =>
          exact (full rfl).elim
      | cons byte rest =>
          trivial

end Info

section Safety

variable {cmd : Command} (clear : CrlfFree cmd.name)

/-- The section given, if there is just one, is known or has no CR LF. -/
def QuotesSection (args : List Bytes) : Prop :=
  ∀ name,
    args = [name] →
    isInfoSection (lower name) = true ∨ CrlfFree name

/-- The reply of INFO is line-safe exactly when what it quotes is. -/
theorem always_cmdInfo :
    (cmdInfo cmd).Always
      Call.Observes
      (fun reply => reply.LineSafe ↔ QuotesSection cmd.args)
      NoThrow := by
  unfold cmdInfo
  split
  · rename_i shape
    refine always_infoReply.imp fun reply answered => ?_
    have standard : isInfoSection (lower (ascii "all")) = true := by
      decide
    simp only [standard, if_true] at answered
    simp [answered, QuotesSection, shape]
  · rename_i name shape
    refine always_infoReply.imp fun reply answered => ?_
    cases known : isInfoSection (lower name) with
    | true =>
        simp only [known, if_true] at answered
        simp [answered, QuotesSection, shape, known]
    | false =>
        simp only [known, Bool.false_eq_true, if_false] at answered
        simp [answered, QuotesSection, shape, known]
  · rename_i moreArgs
    have safe : (err "ERR syntax error").LineSafe :=
      lineSafe_err (by decide)
    refine iff_of_true safe fun name shape => ?_
    exact (moreArgs name shape).elim

/-- PUBLISH keeps the store. -/
theorem always_cmdPublish :
    (cmdPublish cmd).Always
      Call.KeepsStore RespValue.LineSafe NoThrow := by
  unfold cmdPublish
  split
  · exact ⟨trivial, fun _ => trivial⟩
  · exact lineSafe_err (by decide)

include clear

theorem always_cmdPing :
    (cmdPing cmd).Always
      Call.Observes RespValue.LineSafe NoThrow := by
  unfold cmdPing
  split
  · exact RespValue.lineSafe_simpleString_iff.mpr (by decide)
  · trivial
  · exact lineSafe_wrongArgs_iff.mpr clear

/-- DEL changes its keys only. -/
theorem always_cmdDel :
    (cmdDel cmd).Always
      (Call.Modifies cmd.args) RespValue.LineSafe NoThrow := by
  unfold cmdDel
  split
  · exact lineSafe_wrongArgs_iff.mpr clear
  · exact (always_delKeys fun _ member => member).bind
      fun _ _ => trivial

theorem always_cmdExists :
    (cmdExists cmd).Always
      Call.Observes RespValue.LineSafe NoThrow := by
  unfold cmdExists
  split
  · exact lineSafe_wrongArgs_iff.mpr clear
  · exact always_countExisting.bind fun _ _ => trivial

/-- EXPIRE stays within its key, which it may erase. -/
theorem always_cmdExpire :
    (cmdExpire cmd).Always
      (Call.Within (cmd.args.take 1)) RespValue.LineSafe NoThrow := by
  unfold cmdExpire
  split
  · rename_i key amount shape
    split
    · exact lineSafe_notAnInteger
    · split
      · exact lineSafe_notAnInteger
      · exact ⟨by simp [Call.Within, shape], fun _ => trivial⟩
  · exact lineSafe_wrongArgs_iff.mpr clear

theorem always_cmdTtl :
    (cmdTtl cmd).Always
      Call.Observes RespValue.LineSafe NoThrow := by
  unfold cmdTtl
  split
  · refine Script.always_invoke_bind.mpr ⟨trivial, fun ms => ?_⟩
    split <;> trivial
  · exact lineSafe_wrongArgs_iff.mpr clear

theorem always_cmdPersist :
    (cmdPersist cmd).Always
      (Call.Modifies (cmd.args.take 1)) RespValue.LineSafe NoThrow := by
  unfold cmdPersist
  split
  · rename_i key shape
    exact ⟨by simp [Call.Modifies, shape], fun _ => trivial⟩
  · exact lineSafe_wrongArgs_iff.mpr clear

theorem always_cmdHealth :
    (cmdHealth cmd).Always
      Call.Observes RespValue.LineSafe NoThrow := by
  unfold cmdHealth
  split
  · exact RespValue.lineSafe_simpleString_iff.mpr (by decide)
  · exact lineSafe_wrongArgs_iff.mpr clear

/-- READY only looks at the flag. -/
theorem always_cmdReady :
    (cmdReady cmd).Always
      Call.Observes RespValue.LineSafe NoThrow := by
  unfold cmdReady
  split
  · refine Script.always_invoke_bind.mpr ⟨trivial, fun stats => ?_⟩
    split
    · exact RespValue.lineSafe_simpleString_iff.mpr (by decide)
    · exact lineSafe_err (by decide)
  · exact lineSafe_wrongArgs_iff.mpr clear

/-- METRICS only looks at the counters and the store. -/
theorem always_cmdMetrics :
    (cmdMetrics cmd).Always
      Call.Observes RespValue.LineSafe NoThrow := by
  unfold cmdMetrics
  split
  · exact ⟨trivial, fun _ => ⟨trivial, fun _ =>
      ⟨trivial, fun _ => ⟨trivial, fun _ => trivial⟩⟩⟩⟩
  · exact lineSafe_wrongArgs_iff.mpr clear

end Safety

end Vortek
