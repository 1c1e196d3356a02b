import IrcLink.Message

/-!
Handlers by command. A handler keeps a state of its own and changes a context it shares with the others; those of one
command run in the order in which they were registered.
-/

namespace IrcLink

structure Handler (σ γ : Type) where
  state : σ
  step : σ → γ → Message → σ × γ

namespace Handler

variable {σ γ : Type}

def stateless [Inhabited σ] (f : γ → Message → γ) : Handler σ γ := ⟨default, fun s ctx m => (s, f ctx m)⟩

def run (h : Handler σ γ) (ctx : γ) (m : Message) : Handler σ γ × γ :=
  let (s, ctx) := h.step h.state ctx m
  ({ h with state := s }, ctx)

def runAll : List (Handler σ γ) → γ → Message → List (Handler σ γ) × γ
  | [], ctx, _ => ([], ctx)
  | h :: hs, ctx, m =>
    let (h, ctx) := h.run ctx m
    let (hs, ctx) := runAll hs ctx m
    (h :: hs, ctx)

end Handler

structure Dispatcher (σ γ : Type) where
  handlers : List (Bytes × List (Handler σ γ)) := []

namespace Dispatcher

variable {σ γ : Type} (d : Dispatcher σ γ)

def handlersOf (command : Bytes) : List (Handler σ γ) := (d.handlers.lookup command).getD []

def setHandlers (command : Bytes) (hs : List (Handler σ γ)) : List (Bytes × List (Handler σ γ)) →
    List (Bytes × List (Handler σ γ))
  | [] => [(command, hs)]
  | (c, old) :: rest => if c = command then (c, hs) :: rest else (c, old) :: setHandlers command hs rest

def register (command : Bytes) (h : Handler σ γ) : Dispatcher σ γ :=
  ⟨setHandlers command (d.handlersOf command ++ [h]) d.handlers⟩

def dispatch (ctx : γ) (m : Message) : Dispatcher σ γ × γ × Nat :=
  match d.handlers.lookup m.command with
  | none => (d, ctx, 0)
  | some hs =>
    let (hs, ctx) := Handler.runAll hs ctx m
    (⟨setHandlers m.command hs d.handlers⟩, ctx, hs.length)

end Dispatcher

end IrcLink
