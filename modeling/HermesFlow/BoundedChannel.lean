import Mathlib.Data.List.Basic

/-!
# Bounded channels

A first-in first-out channel of bounded capacity with a single receiver. The
operations are a parameter of the programs that use one, and the laws below say
what such a program relies on. The channel of this module obeys them: a value
that is sent while the receiver waits is handed over; otherwise it is buffered,
and `trySend` has no result when the buffer is full.
-/

namespace HermesFlow.BoundedChannel

variable {Ch M : Type*}

/-- The operations of a channel with messages of a type, and what can be observed of it. -/
structure ChannelOps (Ch M : Type*) where
  /-- A channel of a capacity. -/
  new : ℕ → Ch
  /-- Send without waiting; no result when the message is dropped. -/
  trySend : Ch → M → Option Ch
  /-- Begin to receive. -/
  asyncReceive : Ch → Ch
  /-- The receiver goes on, with a message or an error; no result while it waits. -/
  resume : Ch → Option (Option M × Ch)
  /-- No further message can be sent. -/
  close : Ch → Ch
  /-- The messages that it holds. -/
  capacity : Ch → ℕ
  /-- The messages that were sent and not taken by the receiver, oldest first. -/
  contents : Ch → List M
  /-- It has not been closed. -/
  IsOpen : Ch → Prop
  /-- A receive has begun, and its receiver has not gone on. -/
  Receiving : Ch → Prop

/-- What the users of a channel rely on. -/
structure ChannelOps.Lawful (ops : ChannelOps Ch M) : Prop where
  /-- A new channel is open and empty, and nobody receives from it. -/
  new : ∀ capacity, ops.IsOpen (ops.new capacity) ∧ ops.capacity (ops.new capacity) = capacity ∧
    ops.contents (ops.new capacity) = [] ∧ ¬ops.Receiving (ops.new capacity)
  /-- An open channel with room takes the message, behind all others. -/
  trySend : ∀ ch m, ops.IsOpen ch → (ops.contents ch).length < ops.capacity ch →
    ∃ ch', ops.trySend ch m = some ch' ∧ ops.IsOpen ch' ∧ ops.capacity ch' = ops.capacity ch ∧
      ops.contents ch' = ops.contents ch ++ [m] ∧ (ops.Receiving ch' ↔ ops.Receiving ch)
  /-- Beginning to receive keeps the messages. -/
  asyncReceive : ∀ ch, ops.IsOpen ch → ¬ops.Receiving ch →
    ops.IsOpen (ops.asyncReceive ch) ∧ ops.capacity (ops.asyncReceive ch) = ops.capacity ch ∧
      ops.contents (ops.asyncReceive ch) = ops.contents ch ∧ ops.Receiving (ops.asyncReceive ch)
  /-- The receiver of an open channel goes on with the oldest message. -/
  resume : ∀ ch value ch', ops.IsOpen ch → ops.resume ch = some (value, ch') →
    ∃ m, value = some m ∧ ops.contents ch = m :: ops.contents ch' ∧ ops.IsOpen ch' ∧
      ops.capacity ch' = ops.capacity ch ∧ ¬ops.Receiving ch'
  /-- It can go on once a message is there. -/
  resume_isSome : ∀ ch, ops.IsOpen ch → ops.Receiving ch → ops.contents ch ≠ [] →
    (ops.resume ch).isSome
  /-- Closing keeps the messages. -/
  close : ∀ ch, ops.capacity (ops.close ch) = ops.capacity ch ∧
    ops.contents (ops.close ch) = ops.contents ch

/-- The receiving side. -/
inductive Receiver (M : Type*) where
  | idle
  /-- An `asyncReceive` found nothing. -/
  | waiting
  /-- An `asyncReceive` is complete, with a value or an error. -/
  | handed (value : Option M)

/-- A bounded channel. -/
structure Channel (M : Type*) where
  /-- How many values the buffer holds. -/
  capacity : ℕ
  /-- The values sent and not yet received. -/
  buffer : List M
  /-- What the receiver is doing. -/
  receiver : Receiver M
  /-- Whether the channel is closed. -/
  closed : Bool

/-- A new channel. -/
def Channel.new (capacity : ℕ) : Channel M := ⟨capacity, [], .idle, false⟩

/-- What the receiver has been handed. -/
def Receiver.value : Receiver M → List M
  | .handed (some m) => [m]
  | _ => []

/-- The values that were sent and not taken by the receiver, in order. -/
def Channel.contents (ch : Channel M) : List M := ch.receiver.value ++ ch.buffer

/-- Send without waiting; no result when the value is dropped. -/
def Channel.trySend (ch : Channel M) (m : M) : Option (Channel M) :=
  if ch.closed then none
  else
    match ch.receiver with
    | .waiting => some { ch with receiver := .handed (some m) }
    | _ =>
      if ch.buffer.length < ch.capacity then some { ch with buffer := ch.buffer ++ [m] } else none

/-- Begin to receive: take the oldest value, fail on a closed channel, or wait. -/
def Channel.asyncReceive (ch : Channel M) : Channel M :=
  match ch.buffer with
  | m :: rest => { ch with buffer := rest, receiver := .handed (some m) }
  | [] => if ch.closed then { ch with receiver := .handed none } else { ch with receiver := .waiting }

/-- The receiver goes on with what it was handed. -/
def Channel.resume (ch : Channel M) : Option (Option M × Channel M) :=
  match ch.receiver with
  | .handed value => some (value, { ch with receiver := .idle })
  | _ => none

/-- No further value can be sent. -/
def Channel.close (ch : Channel M) : Channel M := { ch with closed := true }

/-- The receiver waits only on an empty buffer, and an open channel hands it values. -/
structure Channel.Open (ch : Channel M) : Prop where
  /-- The channel is not closed. -/
  not_closed : ch.closed = false
  /-- A receiver waits only on an empty buffer. -/
  waiting_empty : ch.receiver = .waiting → ch.buffer = []
  /-- A receiver is handed a value, never the end. -/
  handed_value : ch.receiver ≠ .handed none

/-- A new channel is open. -/
theorem open_new (capacity : ℕ) : (Channel.new capacity : Channel M).Open :=
  ⟨rfl, nofun, nofun⟩

/-- An open channel with room takes the value, behind all others. -/
theorem Channel.Open.trySend {ch : Channel M} (h : ch.Open) (m : M)
    (hroom : ch.contents.length < ch.capacity) :
    ∃ ch', ch.trySend m = some ch' ∧ ch'.Open ∧ ch'.capacity = ch.capacity ∧
      ch'.contents = ch.contents ++ [m] ∧ (ch'.receiver = .idle ↔ ch.receiver = .idle) := by
  have hopen : ¬ ch.closed = true := by simp [h.not_closed]
  have hbuffer : ch.buffer.length < ch.capacity := by
    rw [Channel.contents, List.length_append] at hroom
    omega
  rw [Channel.trySend, if_neg hopen]
  cases hr : ch.receiver with
  | waiting =>
    refine ⟨_, rfl, ⟨h.not_closed, nofun, nofun⟩, rfl, ?_, ⟨nofun, nofun⟩⟩
    simp [Channel.contents, hr, h.waiting_empty hr, Receiver.value]
  | idle =>
    refine ⟨_, if_pos hbuffer, ⟨h.not_closed, nofun, nofun⟩, rfl, ?_, Iff.rfl⟩
    simp [Channel.contents, hr]
  | handed value =>
    have hvalue := h.handed_value
    rw [hr] at hvalue
    refine ⟨_, if_pos hbuffer, ⟨h.not_closed, nofun, hvalue⟩, rfl, ?_, Iff.rfl⟩
    simp [Channel.contents, hr]

/-- Beginning to receive keeps the values. -/
theorem Channel.Open.asyncReceive {ch : Channel M} (h : ch.Open) (hidle : ch.receiver = .idle) :
    ch.asyncReceive.Open ∧ ch.asyncReceive.capacity = ch.capacity ∧
      ch.asyncReceive.contents = ch.contents ∧ ch.asyncReceive.receiver ≠ .idle := by
  have hopen : ¬ ch.closed = true := by simp [h.not_closed]
  rw [Channel.asyncReceive]
  cases hb : ch.buffer with
  | nil =>
    dsimp only
    rw [if_neg hopen]
    refine ⟨⟨h.not_closed, fun _ => rfl, nofun⟩, rfl, ?_, nofun⟩
    simp [Channel.contents, Receiver.value, hidle, hb]
  | cons m rest =>
    refine ⟨⟨h.not_closed, nofun, nofun⟩, rfl, ?_, nofun⟩
    simp [Channel.contents, Receiver.value, hidle, hb]

/-- The receiver of an open channel goes on with the oldest value. -/
theorem Channel.Open.resume {ch ch' : Channel M} {value : Option M} (h : ch.Open)
    (hresume : ch.resume = some (value, ch')) :
    ∃ m, value = some m ∧ ch.contents = m :: ch'.contents ∧ ch'.Open ∧
      ch'.capacity = ch.capacity ∧ ch'.receiver = .idle := by
  rw [Channel.resume] at hresume
  cases hr : ch.receiver with
  | idle => simp [hr] at hresume
  | waiting => simp [hr] at hresume
  | handed v =>
    rw [hr] at hresume
    obtain ⟨rfl, rfl⟩ := Prod.mk.inj (Option.some.inj hresume)
    cases v with
    | none => exact absurd hr h.handed_value
    | some m =>
      refine ⟨m, rfl, ?_, ⟨h.not_closed, nofun, nofun⟩, rfl, rfl⟩
      simp [Channel.contents, Receiver.value, hr]

/-- A receiver that has begun to receive can go on once a value is there. -/
theorem Channel.Open.resume_isSome {ch : Channel M} (h : ch.Open) (hidle : ch.receiver ≠ .idle)
    (hcontents : ch.contents ≠ []) : ch.resume.isSome := by
  rw [Channel.resume]
  cases hr : ch.receiver with
  | idle => exact absurd hr hidle
  | handed value => rfl
  | waiting =>
    refine absurd ?_ hcontents
    simp [Channel.contents, Receiver.value, hr, h.waiting_empty hr]

/-- The operations of this channel. -/
def boundedOps (M : Type*) : ChannelOps (Channel M) M where
  new := Channel.new
  trySend := Channel.trySend
  asyncReceive := Channel.asyncReceive
  resume := Channel.resume
  close := Channel.close
  capacity := Channel.capacity
  contents := Channel.contents
  IsOpen := Channel.Open
  Receiving := fun ch => ch.receiver ≠ .idle

/-- The bounded channel obeys the laws that are asked of a channel. -/
theorem lawful_boundedOps (M : Type*) : (boundedOps M).Lawful where
  new capacity := ⟨open_new capacity, rfl, rfl, not_not.mpr rfl⟩
  trySend _ m hopen hroom := by
    obtain ⟨ch', hsend, hopen', hcapacity, hcontents, hidle⟩ := hopen.trySend m hroom
    exact ⟨ch', hsend, hopen', hcapacity, hcontents, not_congr hidle⟩
  asyncReceive _ hopen hidle := hopen.asyncReceive (not_not.mp hidle)
  resume _ _ _ hopen hresume := by
    obtain ⟨m, hvalue, hcontents, hopen', hcapacity, hidle⟩ := hopen.resume hresume
    exact ⟨m, hvalue, hcontents, hopen', hcapacity, not_not.mpr hidle⟩
  resume_isSome _ hopen hbusy hcontents := hopen.resume_isSome hbusy hcontents
  close _ := ⟨rfl, rfl⟩

end HermesFlow.BoundedChannel
