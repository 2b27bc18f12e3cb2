/-
What a server reads of a handshake. Connecting queues three lines at most, one for each
command of the handshake, on a socket of its own (`opensWith_handshake`). Of a network that
validation accepts the nick is a plain word. Validation does not look at the password and
the user name; when they are plain words too, the lines say what is configured, except that
a line carries the real name no further than its first line end
(`accepted_network_opens_readably`).
-/
import IrcBot.Proofs.Config.Acceptance
import IrcBot.Proofs.Connection.Sending

namespace IrcBot

/-! ## What is configured -/

namespace Config.Network

/-- The words of the handshake that validation does not look at can stand between spaces. -/
structure Worded (n : Network) : Prop where
  password : ∀ password ∈ n.password, Message.IsMiddle password ∧ Text.Unbroken password
  user : Message.IsMiddle n.user ∧ Text.Unbroken n.user

/-- What a network's server is to read first, with this real name. -/
def opening (n : Network) (realname : Text) : List Message :=
  (n.password.map fun password => { command := "PASS".toList, middle := [password] }).toList ++
    [{ command := "NICK".toList, middle := [n.primaryNick] },
      { command := "USER".toList, middle := [n.user, ['*'], ['*']], trailing := some realname }]

end Config.Network

namespace Circuit

variable {κ : Type} {c : Circuit κ}

/-! ## What is sent -/

/-- Connecting succeeds; then these lines wait in the queue of a new socket, nothing else does,
and nothing but their sending has occurred. -/
structure OpensWith (c : Circuit κ) (callbacks : Callbacks κ) (stream : Stream)
    (lines : List Text) : Prop where
  accepted : (c.connect callbacks (.ok stream)).1 = .ok ()
  socket : (c.connect callbacks (.ok stream)).2.session.socket = some c.pool.nextHandle
  queued : ∃ s, (c.connect callbacks (.ok stream)).2.pool.socket? c.pool.nextHandle = some s ∧
    s.queue.pieces = lines.map frame
  announced : (c.connect callbacks (.ok stream)).2.occurred =
    c.occurred ++ lines.map .rawLineSent

/-- Connecting sends the handshake. -/
theorem opensWith_handshake (hphase : c.session.phase = .disconnected) (callbacks : Callbacks κ)
    (stream : Stream) :
    c.OpensWith callbacks stream ((Connection.handshake c.settings).map sentAs) := by
  have hconnect := connect_ok callbacks stream hphase
  refine ⟨?_, ?_, ?_, ?_⟩ <;> rw [hconnect]
  · rw [session_queuedAll]
    rfl
  · exact ⟨_, socket?_queuedAll (socket?_opened callbacks stream) _, rfl⟩
  · rw [occurred_queuedAll]
    rfl

/-- What is sent of the handshake is the opening, with the real name cut. -/
theorem map_sent_handshake (n : Config.Network) :
    (Connection.handshake n).map sent = n.opening (firstLine n.realname) := by
  unfold Connection.handshake Config.Network.opening
  cases n.password <;> rfl

/-- The words of every command of the handshake can stand between spaces. -/
theorem words_handshake {n : Config.Network} (hwords : n.Worded)
    (hnick : Nick.isValid n.primaryNick = true) :
    ∀ command ∈ Connection.handshake n, ∀ word ∈ command.words,
      Message.IsMiddle word ∧ Text.Unbroken word := by
  intro command hcommand
  rcases List.mem_append.1 hcommand with hpass | hrest
  · obtain ⟨password, hpassword, rfl⟩ := Option.map_eq_some_iff.1 (Option.mem_toList.1 hpass)
    simpa [Command.words] using hwords.password password hpassword
  · rcases List.mem_cons.1 hrest with rfl | hrest
    · simpa [Command.words] using Nick.isMiddle_of_isValid hnick
    · obtain rfl := List.mem_singleton.1 hrest
      have hstar : Message.IsMiddle ['*'] ∧ Text.Unbroken ['*'] := by decide
      simpa [Command.words, hstar] using hwords.user

/-- **An accepted network is greeted as configured.** Take a configuration that validation accepts
and a network of it whose password, if there is one, and user name are not empty, hold no space
and no line end and do not start with a colon. From any disconnected state of its connection,
connecting on any stream queues lines on a new socket, each without a line end inside, that are
read in their order as: the password, if there is one; the primary nick; the user name and two
stars with the real name up to its first line end. -/
theorem accepted_network_opens_readably {config : Config} (hconfig : config.validate = .ok ())
    {n : Config.Network} (hn : n ∈ config.networks) (hwords : n.Worded)
    (hsettings : c.settings = n) (hphase : c.session.phase = .disconnected)
    (callbacks : Callbacks κ) (stream : Stream) :
    ∃ lines, c.OpensWith callbacks stream lines ∧ (∀ line ∈ lines, Text.Unbroken line) ∧
      lines.map Message.parse = (n.opening (firstLine n.realname)).map .ok := by
  subst hsettings
  have hplain := words_handshake hwords (Config.isValid_primaryNick hconfig hn)
  refine ⟨_, opensWith_handshake hphase callbacks stream, ?_, ?_⟩
  · intro line hline
    obtain ⟨command, -, rfl⟩ := List.mem_map.1 hline
    exact unbroken_firstLine command.line
  · rw [← map_sent_handshake, List.map_map, List.map_map]
    exact List.map_congr_left fun command hcommand => parse_sentAs (hplain command hcommand)

/-! ## Some networks -/

/-- A network with one nick that greets its server with this. -/
def greeting (password : Option Text) (user realname : Text) : Config.Network :=
  { name := "net".toList, host := "irc.test".toList, nicks := ["bot".toList], user, realname,
    password }

/-- A configuration with this network alone. -/
def alone (n : Config.Network) : Config := { networks := [n] }

/-- The connection to a network before anything has happened, with an empty pool. -/
def fresh (n : Config.Network) : Circuit Unit where
  settings := n
  session := (Connection.ofSettings n).session
  pool := { pollTimeout := 250 }

/-- Colons inside the password and one in front of the real name, which has a second line. -/
def colons : Config.Network :=
  greeting (some "s:e:sam".toList) "prebot".toList ":Pre bot\r\nQUIT".toList

theorem colons_open_readably :
    (alone colons).validate = .ok () ∧ colons ∈ (alone colons).networks ∧ colons.Worded ∧
      ∃ lines, (fresh colons).OpensWith {} {} lines ∧ (∀ line ∈ lines, Text.Unbroken line) ∧
        lines.map Message.parse =
          [.ok { command := "PASS".toList, middle := ["s:e:sam".toList] },
            .ok { command := "NICK".toList, middle := ["bot".toList] },
            .ok { command := "USER".toList, middle := ["prebot".toList, ['*'], ['*']],
                  trailing := some ":Pre bot".toList }] := by
  have hvalid : (alone colons).validate = .ok () := if_pos (by decide +kernel)
  have hmem : colons ∈ (alone colons).networks := List.mem_singleton.2 rfl
  have hwords : colons.Worded := ⟨by decide, by decide⟩
  exact ⟨hvalid, hmem, hwords,
    accepted_network_opens_readably (c := fresh colons) hvalid hmem hwords rfl rfl {} {}⟩

/-- The network is accepted; connecting sends these lines, and they are read otherwise than it is
configured. -/
structure Misread (n : Config.Network) (lines : List Text) : Prop where
  accepted : (alone n).validate = .ok ()
  opens : (fresh n).OpensWith {} {} lines
  misread : lines.map Message.parse ≠ (n.opening n.realname).map .ok

theorem misread_of {n : Config.Network} {lines : List Text} (hfaults : (alone n).faults = [])
    (hlines : (Connection.handshake n).map sentAs = lines)
    (hread : lines.map Message.parse ≠ (n.opening n.realname).map .ok) : Misread n lines where
  accepted := if_pos (List.isEmpty_iff.2 hfaults)
  opens := hlines ▸ opensWith_handshake (c := fresh n) rfl {} {}
  misread := hread

/-- A space in the password, one in the user name, and a line end in the real name. -/
theorem accepted_networks_misread :
    Misread (greeting (some "open sesame".toList) "prebot".toList "Bot".toList)
        ["PASS open sesame".toList, "NICK bot".toList, "USER prebot * * :Bot".toList] ∧
      Misread (greeting none "pre bot".toList "Bot".toList)
        ["NICK bot".toList, "USER pre bot * * :Bot".toList] ∧
      Misread (greeting none "prebot".toList "Pre\nbot".toList)
        ["NICK bot".toList, "USER prebot * * :Pre".toList] := by
  refine ⟨misread_of ?_ ?_ ?_, misread_of ?_ ?_ ?_, misread_of ?_ ?_ ?_⟩ <;> decide +kernel

end Circuit

end IrcBot
