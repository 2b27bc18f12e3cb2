/-
What is wrong with a configuration. All faults are reported, each as often
as it occurs: those of the bot first, then those of the sockets, then network
by network. A network is only judged by itself, but for its name, which may
not be the name of an earlier one.
-/
import IrcBot.Config.Settings
import IrcBot.Name
import IrcBot.Text.Numeral

namespace IrcBot.Config

inductive Fault where
  | emptyCommandMark
  | invalidNumeric (n : Nat)
  | unknownModule (name : Text)
  | zeroPollTimeout
  | zeroConnectTimeout
  | noNetworks
  | emptyName
  | duplicateNetwork (name : Text)
  | emptyHost (network : Text)
  | zeroPort (network : Text)
  | noNicks (network : Text)
  | invalidNick (network nick : Text)
  | invalidChannel (network channel : Text)
  deriving DecidableEq, Repr

/-- A name in single quotes. -/
def named (name : Text) : Text := '\'' :: name ++ ['\'']

def ofNetwork (network : Text) : Text := "network ".toList ++ named network

def Fault.message : Fault → Text
  | .emptyCommandMark => "bot.command_prefix must not be empty".toList
  | .invalidNumeric n =>
    "bot.registered_numeric must be between 1 and 999, got ".toList ++ Text.ofNat n
  | .unknownModule name => "bot.modules names unknown module ".toList ++ named name
  | .zeroPollTimeout => "reactor.poll_timeout_ms must be greater than 0".toList
  | .zeroConnectTimeout => "reactor.connect_timeout_ms must be greater than 0".toList
  | .noNetworks => "at least one [[network]] is required".toList
  | .emptyName => "network name must not be empty".toList
  | .duplicateNetwork name => ofNetwork name ++ " is defined more than once".toList
  | .emptyHost network => ofNetwork network ++ " has an empty host".toList
  | .zeroPort network => ofNetwork network ++ " has port 0".toList
  | .noNicks network => ofNetwork network ++ " lists no nicks".toList
  | .invalidNick network nick => ofNetwork network ++ " has invalid nick ".toList ++ named nick
  | .invalidChannel network channel =>
    ofNetwork network ++ " has invalid channel ".toList ++ named channel

/-- A fault, if the condition holds. -/
def faultIf (condition : Bool) (fault : Fault) : List Fault := if condition then [fault] else []

def Bot.faults (b : Bot) : List Fault :=
  faultIf b.commandMark.isEmpty .emptyCommandMark ++
    faultIf (!(1 ≤ b.registeredNumeric && b.registeredNumeric ≤ 999))
      (.invalidNumeric b.registeredNumeric) ++
    (b.modules.filter fun m => (Builtin.Kind.ofName? m).isNone).map .unknownModule

def Sockets.faults (s : Sockets) : List Fault :=
  faultIf (s.pollTimeout == 0) .zeroPollTimeout ++
    faultIf (s.connectTimeout == 0) .zeroConnectTimeout

/-- The faults of a network other than that of its name. -/
def Network.ownFaults (n : Network) : List Fault :=
  faultIf (Text.trimBlank n.host).isEmpty (.emptyHost n.name) ++
    faultIf (n.port == 0) (.zeroPort n.name) ++
    faultIf n.nicks.isEmpty (.noNicks n.name) ++
    (n.nicks.filter fun nick => !Nick.isValid nick).map (.invalidNick n.name) ++
    (n.channels.filter fun c => !ChannelName.isValid ChannelName.defaultTypes c).map
      (.invalidChannel n.name)

/-- The fault of a network's name, given the names before it in lower case. -/
def Network.nameFaults (seen : List Text) (n : Network) : List Fault :=
  if n.name.isEmpty then [.emptyName]
  else faultIf (seen.contains (Text.toLower n.name)) (.duplicateNetwork n.name)

/-- Goes through the networks with the names seen so far. -/
def networkFaults (seen : List Text) : List Network → List Fault
  | [] => []
  | n :: rest =>
    n.nameFaults seen ++ n.ownFaults ++
      networkFaults (if n.name.isEmpty then seen else Text.toLower n.name :: seen) rest

end IrcBot.Config

namespace IrcBot

/-- All faults of a configuration. -/
def Config.faults (c : Config) : List Config.Fault :=
  c.bot.faults ++ c.sockets.faults ++ Config.faultIf c.networks.isEmpty .noNetworks ++
    Config.networkFaults [] c.networks

/-- A configuration is accepted if it has no fault. -/
def Config.validate (c : Config) : Except (List Config.Fault) Unit :=
  if c.faults.isEmpty then .ok () else .error c.faults

end IrcBot
