import PythAgent.Proofs.Oracle.Updates
import PythAgent.Proofs.Oracle.Sync
import PythAgent.Proofs.Oracle.Liveness

/-!
# `PythAgent.Proofs.Oracle.Pipeline`: every interleaving of the two tasks is a run of the oracle

The subscriber and the oracle task run at once, and the scheduler interleaves their steps
as it likes. For the oracle, any such interleaving is one sequential run of `Oracle::run`:

* `Pipeline.Abstracts`: the oracle stands where `run` leaves it after the events it has
  handled, the channel holds no more than its capacity, and every update that the shadow's
  receiver has returned is in exactly one place. It has been handled, is in the channel, is
  in the subscriber's hand, or has not been read yet, in that order. So no update is lost,
  duplicated or reordered between the two tasks.
* `Pipeline.Abstracts.step`, `Pipeline.Abstracts.exec`: each step keeps it, and adds to the
  oracle's events the one its action names, if it is an oracle action.
* `spawnOracle_refines_run`: so every interleaving from `spawn_oracle` is, for the oracle,
  the run over the oracle actions of the schedule, with the updates the subscriber forwarded.
* `spawnOracle_inSync`: on a static ledger with a live store, the global store holds the
  oracle's graph after every step of every interleaving.
* `spawnOracle_drains`: while the oracle is not inside a poll that does not return, it can
  take every update from the channel and from the subscriber's hand, in order, with no poll
  tick and no new update from the shadow. This rests on the global store draining its own
  channel, which the model's `send` takes for granted.
* `spawnOracle_backpressure_of_cyclic_root`: when the root mapping chain loops, the oracle's
  first poll tick never returns, and the channel backs up. The subscriber gets at most
  `capacity + 1` updates ahead of the oracle, and every later update waits in the shadow.
-/

set_option autoImplicit false

namespace PythAgent.Solana

open PythSdk (loadMappingAccount)

/-- The updates among what the shadow's receiver returns. -/
def received (results : List (Except RecvError AccountUpdate)) : List AccountUpdate :=
  results.filterMap Except.toOption

@[simp] theorem received_nil : received [] = [] := rfl

@[simp] theorem received_ok (update : AccountUpdate) (results : List (Except RecvError AccountUpdate)) :
    received (.ok update :: results) = update :: received results := rfl

@[simp] theorem received_error (e : RecvError) (results : List (Except RecvError AccountUpdate)) :
    received (.error e :: results) = received results := rfl

/-- The update the subscriber holds. -/
@[simp] def Subscriber.held : Subscriber → List AccountUpdate
  | .sending update => [update]
  | _ => []

/-- The update an event carries. -/
@[simp] def Event.update? : Event → Option AccountUpdate
  | .accountUpdate accountKey account => some (accountKey, account)
  | .pollTick _ => none

/-- The action of the oracle that handles an event. -/
@[simp] def Event.toAction : Event → Action
  | .accountUpdate _ _ => .oracleUpdate
  | .pollTick fuel => .oracleTick fuel

/-- The oracle's actions. -/
@[simp] def Action.isOracle : Action → Bool
  | .oracleUpdate | .oracleTick _ => true
  | .subscriberRecv | .subscriberSend => false

theorem run_append_singleton (remote : Remote) (events : List Event) (e : Event) (s₀ : Oracle) :
    run remote (events ++ [e]) s₀ = (run remote events s₀).bind (runStep remote · e) := by
  simp only [run, List.foldlM_append, List.foldlM_cons, List.foldlM_nil]
  cases run remote events s₀ <;> simp [run]

section Abstracts
variable {remote : Remote} {s₀ : Oracle} {inbox : List (Except RecvError AccountUpdate)}

/-- The pipeline `p` stands where the oracle is after it has handled `events` from `s₀`. Of
the updates that the shadow's receiver returned from `inbox`, the handled ones come first,
then those in the channel, then the one in the subscriber's hand, then those still unread. -/
structure Pipeline.Abstracts (remote : Remote) (s₀ : Oracle)
    (inbox : List (Except RecvError AccountUpdate)) (events : List Event) (p : Pipeline) :
    Prop where
  oracle : run remote events s₀ = p.oracle
  conserved : events.filterMap Event.update? ++ p.updates ++ p.subscriber.held ++
    received p.shadow = received inbox
  bounded : p.updates.length ≤ p.capacity

/-- `spawn_oracle` starts with nothing handled, nothing in the channel and nothing held. -/
theorem spawnOracle_abstracts (remote : Remote) {config : Config} {capacity : Nat}
    {shadow : Option (List (Except RecvError AccountUpdate))} {p₀ : Pipeline}
    (hspawn : spawnOracle config capacity shadow = some p₀) :
    p₀.Abstracts remote (Oracle.new config) (shadow.getD []) [] ∧ p₀.capacity = capacity ∧
      capacity ≠ 0 := by
  unfold spawnOracle at hspawn
  split at hspawn
  · cases hspawn
  · rename_i hcap
    cases hspawn
    refine ⟨⟨rfl, ?_, Nat.zero_le _⟩, rfl, hcap⟩
    cases shadow <;> rfl

/-- What one step of the pipeline can do: the subscriber receives an update or an error, or
sends the update it holds into a channel with room, or the oracle takes the oldest update, or
a poll tick. -/
theorem Pipeline.step_eq_some {p p' : Pipeline} {a : Action} (h : p.step remote a = some p') :
    (a = .subscriberRecv ∧ p.subscriber = .receiving ∧ ∃ update shadow,
      p.shadow = .ok update :: shadow ∧ p' = { p with shadow, subscriber := .sending update }) ∨
    (a = .subscriberRecv ∧ p.subscriber = .receiving ∧ ∃ e shadow,
      p.shadow = .error e :: shadow ∧ p' = { p with shadow }) ∨
    (a = .subscriberSend ∧ ∃ update, p.subscriber = .sending update ∧
      p.updates.length < p.capacity ∧
      p' = { p with subscriber := .receiving, updates := p.updates ++ [update] }) ∨
    (a = .oracleUpdate ∧ ∃ s accountKey account updates, p.oracle = some s ∧
      p.updates = (accountKey, account) :: updates ∧
      p' = { p with updates, oracle := runStep remote s (.accountUpdate accountKey account) }) ∨
    (∃ fuel s, a = .oracleTick fuel ∧ p.oracle = some s ∧
      p' = { p with oracle := runStep remote s (.pollTick fuel) }) := by
  cases a with
  | subscriberRecv =>
    simp only [Pipeline.step] at h
    split at h <;> cases h
    · exact .inl ⟨rfl, ‹_›, _, _, ‹_›, rfl⟩
    · exact .inr (.inl ⟨rfl, ‹_›, _, _, ‹_›, rfl⟩)
  | subscriberSend =>
    simp only [Pipeline.step] at h
    split at h
    · split_ifs at h with hroom
      cases h
      exact .inr (.inr (.inl ⟨rfl, _, ‹_›, hroom, rfl⟩))
    · cases h
  | oracleUpdate =>
    simp only [Pipeline.step] at h
    split at h
    · cases h
      exact .inr (.inr (.inr (.inl ⟨rfl, _, _, _, _, ‹_›, ‹_›, rfl⟩)))
    · cases h
  | oracleTick fuel =>
    simp only [Pipeline.step] at h
    split at h
    · cases h
      exact .inr (.inr (.inr (.inr ⟨fuel, _, rfl, ‹_›, rfl⟩)))
    · cases h

/-- One step keeps the abstraction, and hands the oracle the event of its action, if any. -/
theorem Pipeline.Abstracts.step {events : List Event} {p p' : Pipeline} {a : Action}
    (hp : p.Abstracts remote s₀ inbox events) (h : p.step remote a = some p') :
    ∃ e : List Event, p'.Abstracts remote s₀ inbox (events ++ e) ∧
      e.map Event.toAction = [a].filter Action.isOracle ∧ p'.capacity = p.capacity := by
  obtain ⟨horacle, hconserved, hbounded⟩ := hp
  have hsame : run remote (events ++ []) s₀ = p.oracle := by rw [List.append_nil, horacle]
  rcases Pipeline.step_eq_some h with
    ⟨rfl, hsub, _, _, hshadow, rfl⟩ | ⟨rfl, hsub, _, _, hshadow, rfl⟩ |
    ⟨rfl, _, hsub, hroom, rfl⟩ | ⟨rfl, s, accountKey, account, _, hs, hupdates, rfl⟩ |
    ⟨fuel, s, rfl, hs, rfl⟩
  · exact ⟨[], ⟨hsame, by rw [← hconserved, hsub, hshadow]; simp, hbounded⟩, rfl, rfl⟩
  · exact ⟨[], ⟨hsame, by rw [← hconserved, hsub, hshadow]; simp, hbounded⟩, rfl, rfl⟩
  · exact ⟨[], ⟨hsame, by rw [← hconserved, hsub]; simp, by simpa using hroom⟩, rfl, rfl⟩
  · refine ⟨[.accountUpdate accountKey account], ⟨?_, ?_, ?_⟩, rfl, rfl⟩
    · rw [run_append_singleton, horacle, hs]
      rfl
    · rw [← hconserved, hupdates]
      simp
    · rw [hupdates, List.length_cons] at hbounded
      exact Nat.le_of_succ_le hbounded
  · refine ⟨[.pollTick fuel], ⟨?_, by rw [← hconserved]; simp, hbounded⟩, rfl, rfl⟩
    rw [run_append_singleton, horacle, hs]
    rfl

/-- A schedule keeps the abstraction, and hands the oracle one event per oracle action, in
order. -/
theorem Pipeline.Abstracts.exec :
    ∀ {actions : List Action} {events : List Event} {p p' : Pipeline},
      p.Abstracts remote s₀ inbox events → p.exec remote actions = some p' →
      ∃ events', p'.Abstracts remote s₀ inbox (events ++ events') ∧
        events'.map Event.toAction = actions.filter Action.isOracle ∧ p'.capacity = p.capacity
  | [], _, _, _, hp, h => by
    cases h
    exact ⟨[], by rwa [List.append_nil], rfl, rfl⟩
  | a :: actions, _, _, _, hp, h => by
    rw [Pipeline.exec, List.foldlM_cons] at h
    obtain ⟨p₁, h₁, h⟩ := Option.bind_eq_some.mp h
    obtain ⟨e, hp₁, he, hcap₁⟩ := hp.step h₁
    obtain ⟨events', hp', he', hcap'⟩ := hp₁.exec h
    refine ⟨e ++ events', by rwa [← List.append_assoc], ?_, hcap'.trans hcap₁⟩
    rw [List.map_append, he, he', ← List.filter_append]
    rfl

end Abstracts

/-- Every interleaving of the subscriber and the oracle from `spawn_oracle` is, for the
oracle, the run of `Oracle::run` over the oracle actions of the schedule, in order. Its
account updates are, in order, the updates the subscriber has received from the shadow,
less those still in the channel or in the subscriber's hand. The channel never holds more
than its capacity. -/
theorem spawnOracle_refines_run (remote : Remote) (config : Config) (capacity : Nat)
    (shadow : Option (List (Except RecvError AccountUpdate))) (actions : List Action)
    (p₀ p : Pipeline) (hspawn : spawnOracle config capacity shadow = some p₀)
    (h : p₀.exec remote actions = some p) :
    ∃ events, run remote events (Oracle.new config) = p.oracle ∧
      events.map Event.toAction = actions.filter Action.isOracle ∧
      events.filterMap Event.update? ++ p.updates ++ p.subscriber.held ++ received p.shadow =
        received (shadow.getD []) ∧
      p.updates.length ≤ capacity := by
  obtain ⟨hp₀, hcap₀, -⟩ := spawnOracle_abstracts remote hspawn
  obtain ⟨events, ⟨horacle, hconserved, hbounded⟩, hevents, hcap⟩ := hp₀.exec h
  exact ⟨events, horacle, hevents, hconserved, hcap.trans hcap₀ ▸ hbounded⟩

/-- What the shadow's receiver returns in the examples: an update of the one-product ledger's
price, a lag over two updates, and an update of a key the oracle does not know. -/
def priceThenLagShadow : List (Except RecvError AccountUpdate) :=
  [.ok (.ofLastByte 3, ⟨.price ⟨default⟩⟩), .error (.lagged 2), .ok (.ofLastByte 4, ⟨.other⟩)]

/-- A schedule in which the subscriber receives and forwards while the oracle polls first. -/
def pollFirstSchedule : List Action :=
  [.subscriberRecv, .oracleTick 1, .subscriberSend, .subscriberRecv, .subscriberRecv,
    .oracleUpdate, .subscriberSend]

set_option maxRecDepth 20000 in
/-- `pollFirstSchedule` runs to its end on the one-product ledger from `spawn_oracle` with a
channel of capacity `1`, and the oracle's poll tick returns. -/
theorem exec_pollFirstSchedule :
    ∃ p₀ p s, spawnOracle ⟨.ofLastByte 1⟩ 1 (some priceThenLagShadow) = some p₀ ∧
      p₀.exec oneProductRemote pollFirstSchedule = some p ∧ p.oracle = some s :=
  ⟨_, _, _, rfl, rfl, rfl⟩

/-- `spawnOracle_refines_run` on the one-product ledger, a channel of capacity `1` and the
schedule `pollFirstSchedule`. -/
theorem spawnOracle_refines_run_poll_first :
    ∃ p₀ p, spawnOracle ⟨.ofLastByte 1⟩ 1 (some priceThenLagShadow) = some p₀ ∧
      p₀.exec oneProductRemote pollFirstSchedule = some p ∧
      ∃ events, run oneProductRemote events (Oracle.new ⟨.ofLastByte 1⟩) = p.oracle ∧
        events.map Event.toAction = pollFirstSchedule.filter Action.isOracle ∧
        events.filterMap Event.update? ++ p.updates ++ p.subscriber.held ++ received p.shadow =
          received ((some priceThenLagShadow).getD []) ∧
        p.updates.length ≤ 1 :=
  have ⟨p₀, p, _, hspawn, hexec, _⟩ := exec_pollFirstSchedule
  ⟨p₀, p, hspawn, hexec, spawnOracle_refines_run oneProductRemote _ 1 _ _ p₀ p hspawn hexec⟩

/-- The oracle takes the updates in the channel one by one, and never stalls in one. -/
theorem Pipeline.exec_drain (remote : Remote) :
    ∀ (updates : List AccountUpdate) (p : Pipeline) (s : Oracle), p.updates = updates →
      p.oracle = some s →
      p.exec remote (List.replicate updates.length .oracleUpdate) =
        some { p with updates := [], oracle := run remote (updates.map Event.ofUpdate) s }
  | [], ⟨_, _, _, _, _⟩, s, hu, hs => by
    cases hu
    cases hs
    rfl
  | (accountKey, account) :: updates, p, s, hu, hs => by
    have hstep : p.step remote .oracleUpdate =
        some { p with updates, oracle := some (finalState
          (handleAccountUpdate remote accountKey account s)) } := by
      simp only [Pipeline.step, hs, hu, runStep_accountUpdate]
    have hrun : run remote (((accountKey, account) :: updates).map Event.ofUpdate) s =
        run remote (updates.map Event.ofUpdate)
          (finalState (handleAccountUpdate remote accountKey account s)) := by
      rw [List.map_cons, run, List.foldlM_cons, Event.ofUpdate, runStep_accountUpdate]
      rfl
    rw [List.length_cons, List.replicate_succ, Pipeline.exec, List.foldlM_cons, hstep, hrun]
    exact exec_drain remote updates _ _ rfl rfl

/-- From every state that `spawn_oracle` reaches in which the oracle is not inside a poll
that does not return, the oracle can take every update in the channel and the one in the
subscriber's hand, in order, with no poll tick and no new update from the shadow. Handling
them never stalls: an account update runs no walk, and `send` does not wait on the global
store's channel, which the model takes the store to drain. So no update that the subscriber
has received is stuck on the oracle's side of the channel. -/
theorem spawnOracle_drains (remote : Remote) (config : Config) (capacity : Nat)
    (shadow : Option (List (Except RecvError AccountUpdate))) (actions : List Action)
    (p₀ p : Pipeline) (hspawn : spawnOracle config capacity shadow = some p₀)
    (h : p₀.exec remote actions = some p) (s : Oracle) (hs : p.oracle = some s) :
    ∃ actions' p', p.exec remote actions' = some p' ∧
      actions'.filter Action.isOracle =
        List.replicate (p.updates ++ p.subscriber.held).length .oracleUpdate ∧
      p'.shadow = p.shadow ∧ p'.updates = [] ∧ p'.subscriber.held = [] ∧
      ∃ s', p'.oracle = some s' ∧
        run remote ((p.updates ++ p.subscriber.held).map Event.ofUpdate) s = some s' := by
  obtain ⟨hp₀, hcap₀, hpos⟩ := spawnOracle_abstracts remote hspawn
  obtain ⟨_, -, -, hcap⟩ := hp₀.exec h
  have hdrain := Pipeline.exec_drain remote p.updates p s rfl hs
  obtain ⟨s₁, hs₁⟩ := Option.isSome_iff_exists.mp (run_ofUpdate_isSome remote p.updates s)
  have hfilter : ∀ n, (List.replicate n Action.oracleUpdate).filter Action.isOracle =
      List.replicate n .oracleUpdate := fun n => List.filter_eq_self.mpr fun a ha => by
    rw [List.eq_of_mem_replicate ha]
    rfl
  cases hsub : p.subscriber with
  | sending update =>
    have hs' := runStep_accountUpdate remote s₁ update.1 update.2
    refine ⟨List.replicate p.updates.length .oracleUpdate ++ [.subscriberSend, .oracleUpdate],
      { p with
        subscriber := .receiving
        updates := []
        oracle := runStep remote s₁ (Event.ofUpdate update) }, ?_, ?_, rfl, rfl, rfl, _, hs', ?_⟩
    · rw [Pipeline.exec, List.foldlM_append]
      simp only [Pipeline.exec] at hdrain
      rw [hdrain, hs₁]
      simp [Pipeline.step, hsub, hcap.trans hcap₀, Nat.pos_of_ne_zero hpos]
      rfl
    · rw [List.filter_append, hfilter, Subscriber.held, List.length_append, List.replicate_add]
      rfl
    · rw [Subscriber.held, List.map_append, List.map_cons, List.map_nil, run_append_singleton, hs₁]
      exact hs'
  | receiving | stopped =>
    refine ⟨List.replicate p.updates.length .oracleUpdate, _, hdrain, ?_, rfl, rfl, ?_,
      s₁, hs₁, ?_⟩ <;> simp [hsub, hfilter, hs₁]

/-- A schedule in which only the subscriber moves: it forwards one update, then holds the
next while the channel of capacity `1` is full. -/
def forwardOnlySchedule : List Action :=
  [.subscriberRecv, .subscriberSend, .subscriberRecv, .subscriberRecv]

/-- `spawnOracle_drains` on the one-product ledger, from the state in which the channel is
full and the subscriber holds the next update: the oracle takes the first, the subscriber
sends the second, and the oracle takes it. -/
theorem spawnOracle_drains_full_channel :
    ∃ p₀ p s, spawnOracle ⟨.ofLastByte 1⟩ 1 (some priceThenLagShadow) = some p₀ ∧
      p₀.exec oneProductRemote forwardOnlySchedule = some p ∧ p.oracle = some s ∧
      ∃ actions' p', p.exec oneProductRemote actions' = some p' ∧
        actions'.filter Action.isOracle =
          List.replicate (p.updates ++ p.subscriber.held).length .oracleUpdate ∧
        p'.shadow = p.shadow ∧ p'.updates = [] ∧ p'.subscriber.held = [] ∧
        ∃ s', p'.oracle = some s' ∧
          run oneProductRemote ((p.updates ++ p.subscriber.held).map Event.ofUpdate) s = some s' :=
  ⟨_, _, _, rfl, rfl, rfl, spawnOracle_drains oneProductRemote ⟨.ofLastByte 1⟩ 1
    (some priceThenLagShadow) forwardOnlySchedule _ _ rfl rfl _ rfl⟩

/-- On a static ledger with a live store, after every step of every interleaving of the
subscriber and the oracle from `spawn_oracle`, the global store holds every product and
price of the oracle's graph, unless the oracle is inside a poll that does not return. -/
theorem spawnOracle_inSync (remote : Remote) (hstatic : remote.Static)
    (halive : ∀ n, remote.storeAlive n = true) (config : Config) (capacity : Nat)
    (shadow : Option (List (Except RecvError AccountUpdate))) (actions : List Action)
    (p₀ p : Pipeline) (hspawn : spawnOracle config capacity shadow = some p₀)
    (h : p₀.exec remote actions = some p) (s : Oracle) (hs : p.oracle = some s) : s.InSync := by
  obtain ⟨hp₀, -⟩ := spawnOracle_abstracts remote hspawn
  obtain ⟨_, hp, -⟩ := hp₀.exec h
  exact run_inSync hstatic halive (hp.oracle.trans hs) (Oracle.new_inSync config)

/-- `spawnOracle_inSync` on the one-product ledger and the schedule `pollFirstSchedule`. -/
theorem spawnOracle_inSync_poll_first :
    ∃ p₀ p s, spawnOracle ⟨.ofLastByte 1⟩ 1 (some priceThenLagShadow) = some p₀ ∧
      p₀.exec oneProductRemote pollFirstSchedule = some p ∧ p.oracle = some s ∧ s.InSync :=
  have ⟨p₀, p, s, hspawn, hexec, hs⟩ := exec_pollFirstSchedule
  ⟨p₀, p, s, hspawn, hexec, hs, spawnOracle_inSync oneProductRemote (fun _ _ => rfl)
    (fun _ => rfl) ⟨.ofLastByte 1⟩ 1 (some priceThenLagShadow) pollFirstSchedule p₀ p hspawn hexec
    s hs⟩

/-- A run of account updates returns, and keeps the configuration. -/
theorem run_accountUpdates_config (remote : Remote) :
    ∀ (events : List Event), (∀ e ∈ events, ∃ k a, e = .accountUpdate k a) →
      ∀ s : Oracle, ∃ s', run remote events s = some s' ∧ s'.config = s.config
  | [], _, s => ⟨s, rfl, rfl⟩
  | e :: events, hevents, s => by
    obtain ⟨k, a, rfl⟩ := hevents e (List.mem_cons_self _ _)
    obtain ⟨s', hrun, hconfig⟩ := run_accountUpdates_config remote events
      (fun e he => hevents e (List.mem_cons_of_mem _ he)) _
    refine ⟨s', ?_, hconfig.trans (handleAccountUpdate_config remote k a s)⟩
    rw [run, List.foldlM_cons, runStep_accountUpdate]
    exact hrun

/-- An oracle inside a poll that does not return takes no step; the subscriber's steps leave
it there. -/
theorem Pipeline.exec_oracle_none {remote : Remote} :
    ∀ {actions : List Action} {p p' : Pipeline}, p.oracle = none →
      p.exec remote actions = some p' → actions.filter Action.isOracle = [] ∧ p'.oracle = none
  | [], _, _, hp, h => by
    cases h
    exact ⟨rfl, hp⟩
  | a :: actions, p, _, hp, h => by
    rw [Pipeline.exec, List.foldlM_cons] at h
    obtain ⟨p₁, h₁, h⟩ := Option.bind_eq_some.mp h
    have hstep : a.isOracle = false ∧ p₁.oracle = none := by
      rcases Pipeline.step_eq_some h₁ with ⟨rfl, -, -, -, -, rfl⟩ | ⟨rfl, -, -, -, -, rfl⟩ |
        ⟨rfl, -, -, -, rfl⟩ | ⟨-, _, -, -, -, hs, -⟩ | ⟨-, _, -, hs, -⟩
      · exact ⟨rfl, hp⟩
      · exact ⟨rfl, hp⟩
      · exact ⟨rfl, hp⟩
      all_goals exact absurd (hp.symm.trans hs) nofun
    obtain ⟨hfilter, hp'⟩ := exec_oracle_none hstep.2 h
    rw [List.filter_cons, hstep.1]
    exact ⟨hfilter, hp'⟩

/-- On a static ledger whose root mapping chain comes back to one of its keys, take any
interleaving from `spawn_oracle` that reaches the oracle's first poll tick. That tick never
returns: the oracle takes no step after it. The subscriber has then taken from the shadow
at most `capacity + 1` updates more than the oracle handled before the tick, one in its hand
and the channel full, and every later update waits in the shadow. -/
theorem spawnOracle_backpressure_of_cyclic_root (remote : Remote) (hstatic : remote.Static)
    (config : Config) (nodes : List Pubkey) (last : Pubkey)
    (hc : Chain (remote.account loadMappingAccount) (·.next) config.mappingAccountKey nodes last)
    (hmem : last ∈ nodes) (capacity : Nat)
    (shadow : Option (List (Except RecvError AccountUpdate))) (before after : List Action)
    (fuel : Nat) (hbefore : ∀ f, Action.oracleTick f ∉ before) (p₀ p : Pipeline)
    (hspawn : spawnOracle config capacity shadow = some p₀)
    (h : p₀.exec remote (before ++ .oracleTick fuel :: after) = some p) :
    p.oracle = none ∧ after.filter Action.isOracle = [] ∧
      (received (shadow.getD [])).length ≤
        (received p.shadow).length + (before.filter Action.isOracle).length + capacity + 1 := by
  obtain ⟨hp₀, hcap₀, -⟩ := spawnOracle_abstracts remote hspawn
  rw [Pipeline.exec, List.foldlM_append] at h
  obtain ⟨pA, hA, h⟩ := Option.bind_eq_some.mp h
  rw [List.foldlM_cons] at h
  obtain ⟨pT, hT, h⟩ := Option.bind_eq_some.mp h
  obtain ⟨evA, hpA, hevA, hcapA⟩ := hp₀.exec hA
  -- Before the tick the oracle has only handled updates, which keep its root key.
  have hupdates : ∀ e ∈ evA, ∃ k a, e = .accountUpdate k a := fun e he => by
    cases e with
    | accountUpdate k a => exact ⟨k, a, rfl⟩
    | pollTick f =>
      have hf : Event.toAction (.pollTick f) ∈ before.filter Action.isOracle :=
        hevA ▸ List.mem_map_of_mem _ he
      exact absurd (List.mem_of_mem_filter hf) (hbefore f)
  obtain ⟨sA, hsA, hconfig⟩ := run_accountUpdates_config remote evA hupdates (Oracle.new config)
  replace hconfig : sA.config = config := hconfig
  have hout := (walkChain_followsChain loadMappingAccount (·.next) hstatic
    config.mappingAccountKey).diverges nodes last hc hmem fuel sA.rpcCalls
  rw [← hconfig] at hout
  have hAo : pA.oracle = some sA := hpA.oracle.symm.trans hsA
  have hTo : pT.oracle = none := by
    simp only [Pipeline.step, hAo] at hT
    cases hT
    exact runStep_pollTick_of_outOfFuel hout
  obtain ⟨hafter, hpo⟩ := Pipeline.exec_oracle_none hTo h
  refine ⟨hpo, hafter, ?_⟩
  -- The tick adds no update to the oracle's events, and nothing comes after it.
  obtain ⟨e, hpT, he, hcapT⟩ := hpA.step hT
  obtain ⟨ev', ⟨-, hconserved, hbounded⟩, hev', hcap⟩ := hpT.exec h
  rw [hafter, List.map_eq_nil_iff] at hev'
  replace he : e.map Event.toAction = [.oracleTick fuel] := he
  obtain ⟨x, _, rfl, hx, hrest⟩ := List.map_eq_cons_iff.mp he
  rw [List.map_eq_nil_iff] at hrest
  subst hrest
  cases x with
  | accountUpdate => cases hx
  | pollTick =>
    have hheld : p.subscriber.held.length ≤ 1 := by
      cases p.subscriber <;> simp
    have hhandled : (evA.filterMap Event.update?).length ≤ (before.filter Action.isOracle).length :=
      hevA ▸ (List.length_map evA _).symm ▸ List.length_filterMap_le _ _
    rw [← hconserved, hev']
    simp only [List.append_nil, List.filterMap_append, List.filterMap_cons, Event.update?,
      List.filterMap_nil, List.length_append, List.length_nil]
    have := hcap.trans (hcapT.trans (hcapA.trans hcap₀))
    omega


/-- `spawnOracle_backpressure_of_cyclic_root` on the ledger whose two mapping accounts name
each other: the subscriber forwards one update, the oracle's tick never returns, and the
subscriber ends holding the next update in front of the full channel. -/
theorem spawnOracle_backpressure_of_cyclic_root_pair :
    ∃ p₀ p, spawnOracle ⟨.ofLastByte 1⟩ 1 (some priceThenLagShadow) = some p₀ ∧
      p₀.exec cyclicMappingRemote ([.subscriberRecv, .subscriberSend] ++
        .oracleTick 5 :: [.subscriberRecv, .subscriberRecv]) = some p ∧
      p.oracle = none ∧ [Action.subscriberRecv, .subscriberRecv].filter Action.isOracle = [] ∧
      (received ((some priceThenLagShadow).getD [])).length ≤
        (received p.shadow).length +
          ([Action.subscriberRecv, .subscriberSend].filter Action.isOracle).length + 1 + 1 :=
  ⟨_, _, rfl, rfl, spawnOracle_backpressure_of_cyclic_root cyclicMappingRemote (fun _ _ => rfl)
    ⟨.ofLastByte 1⟩ [.ofLastByte 1, .ofLastByte 2] (.ofLastByte 1)
    (.cons (by decide) rfl (.cons (by decide) rfl (.nil _))) (List.mem_cons_self _ _) 1 _ _ _ 5
    (fun _ => by simp) _ _ rfl rfl⟩

end PythAgent.Solana
