import PythAgent.Solana.Oracle

/-!
# `PythAgent.Solana.Pipeline`: the subscriber and the oracle task that `spawn_oracle` starts

`spawn_oracle` (`oracle.rs:97-112`) creates the `updates` channel with capacity
`config.updates_channel_capacity` and spawns two tasks on it. The `Subscriber`
(`oracle.rs:399-454`) forwards each update that its `BlockchainShadow` broadcasts; the
oracle's `handle_next` (`oracle.rs:148-157`) takes either the next update from the channel or
a poll tick.

A `Pipeline` holds what the two tasks and the channel hold between steps:

* `shadow`: what `shadow_rx.recv()` returns next, in order. A broadcast receiver that falls
  behind gets `RecvError::Lagged` instead of the updates it missed, and one whose sender is
  gone gets `RecvError::Closed`.
* `subscriber`: where the subscriber's loop stands. `forward_update` awaits `recv`, or holds
  an update and awaits `updates_tx.send`. When `start_shadow` fails, `Subscriber::run`
  returns and the task has stopped.
* `updates`: the messages in the channel, oldest first.
* `oracle`: the oracle task. It is `none` once the task is inside a poll that does not return.

An `Action` names the task that makes progress. The scheduler picks any task that can, as
`tokio` may, and `tokio::select!` may take either ready branch. One step of the oracle is
one whole turn of `Oracle::run`. A turn reads no channel after its first line, so the steps
the subscriber takes during the turn change the same parts of the state whether they come
before or after it.

`mpsc::channel` panics on a capacity of `0`, so `spawnOracle` gives no pipeline then.
-/

set_option autoImplicit false

namespace PythAgent.Solana

/-- `tokio::sync::broadcast::error::RecvError`. -/
inductive RecvError where
  /-- The sender is gone. -/
  | closed
  /-- The receiver fell behind, and the channel dropped `skipped` updates for it. -/
  | lagged (skipped : Nat)
deriving DecidableEq

/-- An account update, as the shadow broadcasts it and the `updates` channel carries it. -/
abbrev AccountUpdate := Pubkey × Account

/-- Where the loop of the subscriber's task stands. -/
inductive Subscriber where
  /-- `forward_update` awaits `shadow_rx.recv()`. -/
  | receiving
  /-- `forward_update` awaits `updates_tx.send(update)`. -/
  | sending (update : AccountUpdate)
  /-- `Subscriber::run` has returned, since `start_shadow` failed. -/
  | stopped
deriving DecidableEq

/-- The subscriber task, the `updates` channel and the oracle task. -/
structure Pipeline where
  shadow : List (Except RecvError AccountUpdate)
  subscriber : Subscriber
  updates : List AccountUpdate
  capacity : Nat
  oracle : Option Oracle

/-- The task that makes progress in one step of the pipeline. -/
inductive Action where
  /-- The subscriber's `shadow_rx.recv()` returns. -/
  | subscriberRecv
  /-- The subscriber's `updates_tx.send(update)` returns. -/
  | subscriberSend
  /-- `handle_next` takes its `updates_rx.recv()` branch. -/
  | oracleUpdate
  /-- `handle_next` takes its `poll_interval.tick()` branch, with fuel for the walks. -/
  | oracleTick (fuel : Nat)

namespace Pipeline

/-- One step of the task that `action` names, or `none` when that task cannot make it. A
`recv` error is logged by `forward_updates`, and its loop goes on. `send` waits while the
channel is full. `handle_next` takes an update only when the channel holds one. -/
def step (remote : Remote) (p : Pipeline) : Action → Option Pipeline
  | .subscriberRecv =>
    match p.subscriber, p.shadow with
    | .receiving, .ok update :: shadow => some { p with shadow, subscriber := .sending update }
    | .receiving, .error _ :: shadow => some { p with shadow }
    | _, _ => none
  | .subscriberSend =>
    match p.subscriber with
    | .sending update =>
      if p.updates.length < p.capacity then
        some { p with subscriber := .receiving, updates := p.updates ++ [update] }
      else none
    | _ => none
  | .oracleUpdate =>
    match p.oracle, p.updates with
    | some s, (accountKey, account) :: updates =>
      some { p with updates, oracle := runStep remote s (.accountUpdate accountKey account) }
    | _, _ => none
  | .oracleTick fuel =>
    match p.oracle with
    | some s => some { p with oracle := runStep remote s (.pollTick fuel) }
    | none => none

/-- The steps of `actions`, in order. -/
def exec (remote : Remote) (actions : List Action) (p : Pipeline) : Option Pipeline :=
  actions.foldlM (step remote) p

end Pipeline

/-- `spawn_oracle`. `shadow` is what the shadow's receiver returns, or `none` when
`start_shadow` fails. -/
def spawnOracle (config : Config) (updatesChannelCapacity : Nat)
    (shadow : Option (List (Except RecvError AccountUpdate))) : Option Pipeline :=
  if updatesChannelCapacity = 0 then none
  else some
    { shadow := shadow.getD []
      subscriber := if shadow.isSome then .receiving else .stopped
      updates := []
      capacity := updatesChannelCapacity
      oracle := some (Oracle.new config) }

end PythAgent.Solana
