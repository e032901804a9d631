import Mathlib.Data.List.Basic

namespace OtelDatalake.Foundation

/-- A computation that stops at every message it sends until it hears whether the message went out. -/
inductive Sending (Message Error Value : Type) where
  | done (value : Value)
  | send (message : Message) (resume : Except Error Unit → Sending Message Error Value)

namespace Sending

variable {Message Error Value Result : Type}

def bind (first : Sending Message Error Value) (next : Value → Sending Message Error Result) :
    Sending Message Error Result :=
  match first with
  | done value => next value
  | send message resume => send message fun reply => (resume reply).bind next

instance : Monad (Sending Message Error) where
  pure := done
  bind := bind

/-- From the messages sent so far: `during` holds wherever the computation waits for a message, and `post` holds of its
    value and of all that has been sent when it is done. -/
def Meets (during : List Message → Prop) (post : Value → List Message → Prop) :
    Sending Message Error Value → List Message → Prop
  | done value, sent => post value sent
  | send message resume, sent =>
    during sent ∧ (resume (.ok ())).Meets during post (sent ++ [message]) ∧
      ∀ error, (resume (.error error)).Meets during post sent

namespace Meets

variable {during : List Message → Prop} {sent : List Message}

theorem bind {first : Sending Message Error Value} {next : Value → Sending Message Error Result}
    {middle : Value → List Message → Prop} {post : Result → List Message → Prop}
    (started : first.Meets during middle sent)
    (continued : ∀ value sent, middle value sent → (next value).Meets during post sent) :
    (first >>= next).Meets during post sent := by
  induction first generalizing sent with
  | done value => exact continued value sent started
  | send message resume ih =>
    obtain ⟨waiting, went, failed⟩ := started
    exact ⟨waiting, ih (.ok ()) went, fun error => ih (.error error) (failed error)⟩

theorem silent {first : Sending Message Error Value} {post : Value → List Message → Prop}
    (started : first.Meets (fun _ => False) post sent) : ∃ value, first = .done value ∧ post value sent := by
  cases first with
  | done value => exact ⟨value, rfl, started⟩
  | send message resume => exact started.1.elim

theorem imp {first : Sending Message Error Value} {middle post : Value → List Message → Prop}
    (started : first.Meets during middle sent) (implied : ∀ value sent, middle value sent → post value sent) :
    first.Meets during post sent := by
  induction first generalizing sent with
  | done value => exact implied value sent started
  | send message resume ih =>
    obtain ⟨waiting, went, failed⟩ := started
    exact ⟨waiting, ih (.ok ()) went, fun error => ih (.error error) (failed error)⟩

end Meets

end Sending

end OtelDatalake.Foundation
