import Mathlib.Data.List.Basic

namespace OtelDatalake.Foundation

/-- A bounded queue between any number of senders and one receiver, which closes it when it is dropped. -/
structure Channel (α : Type) where
  capacity : Nat
  queue : List α
  closed : Bool
  bounded : queue.length ≤ capacity
  emptied : closed = true → queue = []

namespace Channel

variable {α : Type}

def empty (capacity : Nat) : Channel α := ⟨capacity, [], false, Nat.zero_le _, fun _ => rfl⟩

theorem send_bounded {channel : Channel α} (free : channel.closed = false ∧ channel.queue.length < channel.capacity)
    (item : α) : (channel.queue ++ [item]).length ≤ channel.capacity := by
  rw [List.length_append]
  exact free.2

theorem send_open {channel : Channel α} (free : channel.closed = false ∧ channel.queue.length < channel.capacity)
    {queue : List α} (closed : channel.closed = true) : queue = [] := by
  rw [free.1] at closed
  cases closed

/-- A sender waits for a free place, and gets none any more when the channel is closed. -/
def send (channel : Channel α) (item : α) : Option (Channel α) :=
  if free : channel.closed = false ∧ channel.queue.length < channel.capacity then
    some ⟨channel.capacity, channel.queue ++ [item], channel.closed, send_bounded free item, send_open free⟩
  else none

theorem recv_bounded {channel : Channel α} {item : α} {rest : List α} (queue : channel.queue = item :: rest) :
    rest.length ≤ channel.capacity := by
  have bounded := channel.bounded
  rw [queue, List.length_cons] at bounded
  omega

theorem recv_emptied {channel : Channel α} {item : α} {rest : List α} (queue : channel.queue = item :: rest)
    (closed : channel.closed = true) : rest = [] := by
  rw [channel.emptied closed] at queue
  cases queue

def recv (channel : Channel α) : Option (α × Channel α) :=
  match queue : channel.queue with
  | [] => none
  | item :: rest => some (item, ⟨channel.capacity, rest, channel.closed, recv_bounded queue, recv_emptied queue⟩)

/-- What is still in the queue is dropped with the receiver. -/
def close (channel : Channel α) : Channel α := ⟨channel.capacity, [], true, Nat.zero_le _, fun _ => rfl⟩

variable {channel next : Channel α} {item : α}

theorem send_eq_some (sent : channel.send item = some next) :
    channel.closed = false ∧ channel.queue.length < channel.capacity ∧ next.queue = channel.queue ++ [item] ∧
      next.closed = false ∧ next.capacity = channel.capacity := by
  unfold send at sent
  split at sent
  · rename_i free
    cases sent
    exact ⟨free.1, free.2, rfl, free.1, rfl⟩
  · cases sent

theorem recv_eq_some (received : channel.recv = some (item, next)) :
    channel.queue = item :: next.queue ∧ next.closed = channel.closed ∧ next.capacity = channel.capacity := by
  unfold recv at received
  split at received
  · cases received
  · rename_i first rest queue
    cases received
    exact ⟨queue, rfl, rfl⟩

end Channel

end OtelDatalake.Foundation
