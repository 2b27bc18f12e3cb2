/-
Handlers that leave services alone. The modules that come with the bot register nothing
once they have started, and trigger nothing but bot commands (`respects_handle`), to which
no service attends. While all handlers are like that, a service is left to its own
(`respectedIn_of_leaves`); and where each handler does what its module has it do, the
service of a module is provided (`provided_of_handles`).
-/
import IrcBot.Proofs.Bot.Hosting
import IrcBot.Proofs.Bot.Lifecycle

namespace IrcBot

/-! ## Modules that come with the bot -/

namespace Builtin

open IrcBot.Bot (Act)

variable {κ γ ν : Type} {attends : Event → Bool} {mine : κ → Bool} {owner : Text}

theorem respects_insist (i : Nat) (o : Circuit.Order) :
    (insist i o : Act κ γ ν Unit).Asks (Bus.Ask.Respects attends mine owner) := by
  refine ⟨trivial, fun result => ?_⟩
  cases result <;> trivial

theorem respects_joinAll (i : Nat) (channels : List Text) :
    (joinAll i channels : Act κ γ ν Unit).Asks (Bus.Ask.Respects attends mine owner) := by
  induction channels with
  | nil => trivial
  | cons channel rest ih => exact (respects_insist i _).bind fun _ => ih

theorem respects_answerPing (event : Event) :
    (answerPing event : Act κ γ ν Unit).Asks (Bus.Ask.Respects attends mine owner) := by
  unfold answerPing
  split
  · exact respects_insist _ _
  · trivial

theorem respects_joinConfigured (event : Event) :
    (joinConfigured event : Act κ γ ν Unit).Asks (Bus.Ask.Respects attends mine owner) := by
  unfold joinConfigured
  split
  · refine ⟨trivial, fun c => ?_⟩
    cases c with
    | none => trivial
    | some c => exact respects_joinAll _ _
  · trivial

theorem respects_offerNick (event : Event) :
    (offerNick event : Act κ γ ν Unit).Asks (Bus.Ask.Respects attends mine owner) := by
  unfold offerNick
  split
  · split
    · refine ⟨trivial, fun c => ?_⟩
      cases c with
      | none => trivial
      | some c =>
        dsimp only [Program.bind]
        split
        · trivial
        · split
          · exact respects_insist _ _
          · trivial
    · trivial
  · trivial

theorem respects_publishCommand
    (hattends : ∀ i sender channel name args,
      attends (.occurred i (.command sender channel name args)) = false)
    (mark : Text) (event : Event) :
    (publishCommand mark event : Act κ γ ν Unit).Asks (Bus.Ask.Respects attends mine owner) := by
  have hpublish (i : Nat) (sender : User) (channel : Option Text) (text : Text) :
      (publishCommand.publish mark i sender channel text : Act κ γ ν Unit).Asks
        (Bus.Ask.Respects attends mine owner) := by
    unfold publishCommand.publish
    split
    · exact ⟨hattends i sender channel _ _, fun _ => trivial⟩
    · trivial
  unfold publishCommand
  split
  · exact hpublish _ _ _ _
  · exact hpublish _ _ _ _
  · trivial

/-- **The modules that come with the bot respect all handlers** that do not attend to bot commands. -/
theorem respects_handle
    (hattends : ∀ i sender channel name args,
      attends (.occurred i (.command sender channel name args)) = false)
    (mark : Text) (kind : Kind) (event : Event) :
    (kind.handle mark event : Act κ γ ν Unit).Asks (Bus.Ask.Respects attends mine owner) := by
  cases kind with
  | ping => exact respects_answerPing event
  | autojoin => exact respects_joinConfigured event
  | commands => exact respects_publishCommand hattends mark event
  | nickFallback => exact respects_offerNick event

end Builtin

/-! ## Runs -/

namespace Bot

variable {μ κ γ ν τ : Type}

namespace Service

variable {s : Service κ γ ν τ}

/-- No service attends to bot commands, so the modules that come with the bot leave it alone. -/
theorem respects_builtin (s : Service κ γ ν τ) (owner mark : Text) (kind : Builtin.Kind)
    (event : Event) :
    (kind.handle mark event : Act κ γ ν Unit).Asks (Bus.Ask.Respects s.attends s.mine owner) := by
  refine Builtin.respects_handle (fun i sender channel name args => ?_) mark kind event
  refine Bool.eq_false_iff.2 fun hattends => ?_
  obtain ⟨j, what, he, hwhat⟩ := s.protocol _ hattends
  cases he
  cases hwhat

/-- What handlers do to connections triggers nothing that a service attends to. -/
theorem unattended_perform {w : World ν} (hw : w.net.Sound) (q : Call ν) :
    ∀ event ∈ (perform q w).2.2, s.attends event = false := by
  have hunheard : ∀ i line, .triggered (.occurred i (.rawLineReceived line)) ∉
      callEntries q w (perform q w).2 := by
    cases q with
    | order i o => exact (Net.still_order hw o).unheard
    | close i => exact Net.still_close.unheard
    | look i | tell news => exact fun _ _ => List.not_mem_nil
  have hevents : (callEntries q w (perform q w).2).filterMap Entry.event? = (perform q w).2.2 := by
    cases q with
    | order i o | close i => exact events_entries _
    | look i | tell news => rfl
  rw [← hevents]
  exact unheard_events s.protocol (moves_call hw q) hunheard

/-- A step in which nobody but handlers uses the bus: the service's own, which do what they are
there for, and others, and none of them asks for anything that does not respect the service. -/
def Leaves (s : Service κ γ ν τ) (owner : Text) : Step κ γ ν → Prop
  | .pollBus handle _ => s.Provided handle ∧
    ∀ k context event, (handle k context event).Asks (Bus.Ask.Respects s.attends s.mine owner)
  | .useBus _ => False
  | .order .. | .close .. | .disturb .. | .pollSockets .. => True

variable {owner : Text}

theorem respects_handling {handle : κ → Option γ → Event → Bus.Handler κ γ Event (calls ν)}
    (h : ∀ k context event,
      (handle k context event).Asks (Bus.Ask.Respects s.attends s.mine owner)) :
    (handling handle).Respects s.attends s.mine owner fun w => w.net.Sound where
  asks := h
  good q _ hw := (moves_call hw q).sound hw
  acts q _ hw := s.unattended_perform hw q

variable [DecidableEq κ] {b : Bot μ κ γ}

theorem respected_of_leaves (hn : b.net.Sound) {step : Step κ γ ν} (hleaves : s.Leaves owner step) :
    s.Respected owner b step := by
  cases step with
  | order | close | disturb | pollSockets => exact ⟨fun _ _ h => (nomatch h), trivial⟩
  | useBus => exact hleaves.elim
  | pollBus handle depth =>
    obtain ⟨hprovided, hasks⟩ := hleaves
    have hstart : Bus.Respecting s.attends s.mine owner (fun w : World ν => w.net.Sound)
        { bus := b.bus, world := { net := b.net } } := ⟨by simp, hn⟩
    have hend := Bus.respecting_poll (respects_handling hasks) depth hstart
    exact ⟨fun _ _ h => by cases h; exact hprovided, hend.notes⟩

/-- **Handlers that respect a service leave it to its own**, in every run in which nobody else
uses the bus. -/
theorem respectedIn_of_leaves (hn : b.net.Sound) {steps : List (Step κ γ ν)}
    (hleaves : ∀ step ∈ steps, s.Leaves owner step) : s.RespectedIn owner b steps := by
  induction steps generalizing b with
  | nil => trivial
  | cons step steps ih =>
    obtain ⟨hfirst, hrest⟩ := List.forall_mem_cons.1 hleaves
    exact ⟨respected_of_leaves hn hfirst, ih ((moves_step hn step).sound hn) hrest⟩

/-- Where each handler does what its module has it do, the service of a module is provided. -/
theorem provided_of_handles {key : Builtin.HandlerId → κ} {m : Builtin.Instance} {mark : Text}
    {handle : κ → Option γ → Event → Bus.Handler κ γ Event (calls ν)}
    (hmine : s.mine = m.owns key) (hbehave : s.behave = m.kind.handle mark)
    (hhandle : ∀ id context event,
      handle (key id) context event = id.owner.kind.handle mark event) : s.Provided handle := by
  intro k context event hk
  rw [hmine] at hk
  obtain ⟨name, -, he⟩ := List.any_eq_true.1 hk
  obtain rfl : key ⟨m, name⟩ = k := of_decide_eq_true he
  rw [hhandle, hbehave]

end Service

/-! ## A bot with modules -/

open Builtin (HandlerId Instance)

/-- Whose the handlers are, where there is nobody but the modules. -/
def ownHome (id : HandlerId) : Option Text := some id.owner.kind.name

/-- Two modules are loaded, and then the first of them again. -/
def loadings : List (Host.Order Instance) :=
  [.load ⟨.ping, 0⟩, .load ⟨.commands, 1⟩, .reload "ping".toList]

/-- A bot with these modules, connected to its network. -/
def equipped : Bot Instance HandlerId Unit :=
  let loaded : Bot Instance HandlerId Unit := loadings.foldl
    (fun b o => (b.withHost () fun h => h.carryOut (Builtin.conduct id) o).2.2)
    { net := .ofNetworks oneNetwork }
  loaded.run ([.order 0 (.connect (.ok {})), .pollSockets { ready := [] }] :
    List (Step HandlerId Unit Unit))

theorem lives_equipped (name : Text) :
    Lives Unit (Builtin.conduct id : ModuleConduct Instance HandlerId Unit Unit) ownHome name
      oneNetwork equipped := by
  have hloaded := List.foldlRecOn loadings
    (motive := Lives Unit (Builtin.conduct id : ModuleConduct Instance HandlerId Unit Unit) ownHome
      name oneNetwork)
    (fun b o => (b.withHost () fun h => h.carryOut (Builtin.conduct id) o).2.2)
    (.fresh {}) fun _ hb o _ => hb.order o ()
  exact (hloaded.step (s := .order 0 (.connect (.ok {}))) trivial).step
    (s := .pollSockets { ready := [] }) trivial

/-- Lines come in one burst, and then the bus is polled, with the handlers of the modules. -/
def heardAtOnce (lines : Bytes) : List (Step HandlerId Unit Unit) :=
  [.disturb 0 (arriving lines false), .pollSockets (reading 0),
    .pollBus (fun id _ => id.owner.kind.handle "?".toList) 1]

end Bot

end IrcBot
