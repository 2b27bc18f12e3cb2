/-
Settings from a settings file. A section is a table; one may also be written
as a list, which gives its settings in their order. Settings with other names
are left alone, and one of the wrong type makes the whole file unreadable.
-/
import IrcBot.Config.Settings
import IrcBot.Text.Utf8
import IrcBot.Toml.Document

namespace IrcBot.Config

/-- A section, with its settings by position and name. -/
structure Section where
  get? : Nat → String → Option Toml.Value
  /-- The section is a list. -/
  ordered : Bool

def section? : Toml.Value → Option Section
  | .table _ fields => some ⟨fun _ name => fields.lookup name.toList, false⟩
  | .list items => some ⟨fun i _ => items[i]?, true⟩
  | .tables elements => some ⟨fun i _ => elements[i]?.map (.table .header), true⟩
  | .moment => some ⟨fun _ _ => none, false⟩
  | _ => none

/-! ## Settings of one type -/

def text? : Toml.Value → Option Text
  | .text t => some t
  | _ => none

def flag? : Toml.Value → Option Bool
  | .boolean b => some b
  | _ => none

/-- A whole number from zero up to a bound, which it does not reach. -/
def number? (bound : Nat) : Toml.Value → Option Nat
  | .integer i => if 0 ≤ i ∧ i < bound then some i.toNat else none
  | _ => none

def items? : Toml.Value → Option (List Toml.Value)
  | .list items => some items
  | .tables elements => some (elements.map (.table .header))
  | _ => none

def list? {α : Type} (item? : Toml.Value → Option α) (v : Toml.Value) : Option (List α) :=
  (items? v).bind (·.mapM item?)

/-- A setting that may be left out. -/
def given {α : Type} (read? : Toml.Value → Option α) (v? : Option Toml.Value) (missing : α) :
    Option α :=
  v?.elim (some missing) read?

/-- The setting at a place where a list has to hold one. -/
def Section.getPlaced? (s : Section) (i : Nat) (name : String) : Option (Option Toml.Value) :=
  match s.get? i name with
  | none => if s.ordered then none else some none
  | some v => some (some v)

/-- Ports and numeric replies have 16 bits. -/
def shortBound : Nat := UInt16.size

/-- Times have 64 bits. -/
def timeBound : Nat := UInt64.size

/-! ## Sections -/

def Bot.read? (v : Toml.Value) : Option Bot := do
  let s ← section? v
  let d : Bot := {}
  return {
    commandMark := ← given text? (s.get? 0 "command_prefix") d.commandMark
    registeredNumeric :=
      ← given (number? shortBound) (s.get? 1 "registered_numeric") d.registeredNumeric
    eventWait := ← given (number? timeBound) (s.get? 2 "event_wait_ms") d.eventWait
    modules := ← given (list? text?) (s.get? 3 "modules") d.modules }

def Sockets.read? (v : Toml.Value) : Option Sockets := do
  let s ← section? v
  let d : Sockets := {}
  return {
    pollTimeout := ← given (number? timeBound) (s.get? 0 "poll_timeout_ms") d.pollTimeout
    connectTimeout := ← given (number? timeBound) (s.get? 1 "connect_timeout_ms") d.connectTimeout }

def Network.read? (v : Toml.Value) : Option Network := do
  let s ← section? v
  let name ← (s.get? 0 "name").bind text?
  let host ← (s.get? 1 "host").bind text?
  let nicks ← (s.get? 3 "nicks").bind (list? text?)
  let d : Network := { name, host, nicks }
  return { d with
    port := ← given (number? shortBound) (s.get? 2 "port") d.port
    user := ← given text? (s.get? 4 "user") d.user
    realname := ← given text? (s.get? 5 "realname") d.realname
    password := ← given (fun v => (text? v).map some) (← s.getPlaced? 6 "password") d.password
    channels := ← given (list? text?) (s.get? 7 "channels") d.channels
    enabled := ← given flag? (s.get? 8 "enabled") d.enabled }

end IrcBot.Config

namespace IrcBot

/-- Reads the text of a settings file. -/
def Config.parse (t : Text) : Option Config := do
  let fields ← Toml.parse t
  let d : Config := {}
  return {
    bot := ← Config.given Config.Bot.read? (fields.lookup "bot".toList) d.bot
    sockets := ← Config.given Config.Sockets.read? (fields.lookup "reactor".toList) d.sockets
    networks := ← Config.given (Config.list? Config.Network.read?) (fields.lookup "network".toList)
      d.networks }

/-- Why a settings file gives no settings. -/
inductive Config.LoadError where
  /-- There is no such file, or it is not UTF-8. -/
  | io
  | parse
  deriving DecidableEq, Repr

/-- Reads a settings file, if it is there. -/
def Config.load (file : Option Bytes) : Except Config.LoadError Config :=
  match file.bind Text.decode? with
  | none => .error .io
  | some t =>
    match Config.parse t with
    | none => .error .parse
    | some c => .ok c

end IrcBot
