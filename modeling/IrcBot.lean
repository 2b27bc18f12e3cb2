import IrcBot.Config.Reading
import IrcBot.Config.Validation
import IrcBot.Proofs.Bot.Commands
import IrcBot.Proofs.Bot.Histories
import IrcBot.Proofs.Bot.LastWords
import IrcBot.Proofs.Bot.Offers
import IrcBot.Proofs.Bot.Openings
import IrcBot.Proofs.Bot.Pings
import IrcBot.Proofs.Bus.Conservation
import IrcBot.Proofs.Bus.Unregistration
import IrcBot.Proofs.Config.Completeness
import IrcBot.Proofs.Connection.Handshake
import IrcBot.Proofs.Module.Known
import IrcBot.Proofs.Module.Ownership
import IrcBot.Proofs.Module.Refusals
import IrcBot.Proofs.Pool.Buffered
import IrcBot.Proofs.Pool.Inbound
import IrcBot.Proofs.Pool.Separation
import IrcBot.Proofs.Pool.Writable
import IrcBot.Proofs.Server.Announcements
import IrcBot.Proofs.Server.ModeStrings
import IrcBot.Proofs.Session.Display
import IrcBot.Proofs.Session.Identities
import IrcBot.Proofs.Session.Listing
import IrcBot.Proofs.Session.Lookups
import IrcBot.Proofs.Session.Modes
import IrcBot.Proofs.Session.Ranks
import IrcBot.Proofs.Session.Routing
import IrcBot.Proofs.Session.Spelling
import IrcBot.Proofs.Session.Strangers
import IrcBot.Proofs.Session.Whereabouts
import IrcBot.Proofs.Stream.Delivery
import IrcBot.Proofs.Stream.Writing
import IrcBot.Proofs.Tracker.Renaming
import IrcBot.Proofs.Wire.Masks
import IrcBot.Proofs.Wire.Rejection
import IrcBot.Proofs.Wire.RoundTrip
import IrcBot.Proofs.Wire.Senders
import IrcBot.Trial.Bus
import IrcBot.Trial.Host
import IrcBot.Trial.Pool
import IrcBot.Trial.Session
