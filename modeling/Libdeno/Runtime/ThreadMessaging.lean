import Libdeno.Library.Channel
import Mathlib.Data.List.Nodup
import Mathlib.Logic.Function.Basic

/-!
# Libdeno.Runtime.ThreadMessaging

Messages between the threads of one runtime (thread_messaging.rs). A worker registers its thread
id in the domain and gets a receiver; any thread may post to the id. Threads run at the same
time: a post looks its target up under the lock and goes on with what it found, so the receiver
may be replaced, closed or dropped before the post counts its listeners, and before it sends.

In every order of steps the domain lists the newest receiver of an id, and that only while it is
open: a receiver that goes away never takes its replacement with it. A post answers 2 exactly if
its message is in the channel of one receiver, once, and that was the newest receiver of the
target when the post began; what a receiver has received is a prefix of what was sent to it
(`thread_messages`).
-/

namespace Libdeno.ThreadMessaging

/-! ### The domain -/

/-- `JsMessageData`, with the transferables `J` of the sending isolate. -/
structure JsMessageData (J : Type) where
  data : List UInt8
  transferables : List J
  deriving Repr, DecidableEq

/-- `ThreadMessage`, and the post that sent it. -/
structure ThreadMessage (T : Type) where
  /-- Which post it was; no part of the program. -/
  call : Nat
  data : List UInt8
  transferables : List T
  deriving Repr, DecidableEq

/-- A `ThreadRegistryEntry` and the `ThreadMessageReceiver` it was registered with. -/
structure ThreadRegistryEntry (T : Type) where
  threadId : BitVec 32
  listenerCount : BitVec 32
  channel : Channel (ThreadMessage T)
  /-- The receiver is in the resource table of its isolate. -/
  inTable : Bool
  /-- How many calls of `op_node_worker_thread_recv_message` hold the receiver. -/
  receiving : Nat
  /-- The `CancelHandle`. -/
  cancelled : Bool
  /-- The receiver was dropped, and its end of the channel with it. -/
  dropped : Bool
  deriving Repr, DecidableEq

namespace ThreadRegistryEntry

variable {T : Type}

/-- A message is sent to the receiver. -/
def push (entry : ThreadRegistryEntry T) (message : ThreadMessage T) : ThreadRegistryEntry T :=
  { entry with channel := entry.channel.push message }

/-- A call that holds the receiver returns a message, if there is one. -/
def receive (entry : ThreadRegistryEntry T) : ThreadRegistryEntry T :=
  match entry.receiving, entry.channel.pop with
  | n + 1, some (_, channel) => { entry with receiving := n, channel }
  | _, _ => entry

theorem receive_cases (entry : ThreadRegistryEntry T) : entry.receive = entry ∨
    ∃ message channel, 0 < entry.receiving ∧ entry.channel.pop = some (message, channel) ∧
      entry.receive = { entry with receiving := entry.receiving - 1, channel } := by
  unfold receive
  split
  · next n message channel hreceiving hpop =>
    exact .inr ⟨message, channel, by omega, hpop, by rw [hreceiving]; rfl⟩
  · exact .inl rfl

end ThreadRegistryEntry

/-- How far a call of `op_node_worker_thread_post_message` is. -/
inductive Phase
  /-- The entry of the target was cloned. -/
  | found (entry : Nat)
  /-- It has listeners, or the post is forced. -/
  | heard (entry : Nat)
  /-- 2: the message is in the channel. -/
  | sent (entry : Nat)
  /-- 0: nobody is registered under the target. -/
  | absent
  /-- 1: the target has no listeners. -/
  | unheard (entry : Nat)
  /-- 0: the receiver was dropped. -/
  | closed (entry : Nat)
  /-- The transferables could not be deserialized. -/
  | failed (entry : Nat)
  deriving Repr, DecidableEq

/-- The entry a post goes on with. -/
def Phase.entry : Phase → Option Nat
  | .absent => none
  | .found e | .heard e | .sent e | .unheard e | .closed e | .failed e => some e

/-- What the op returns, if it is done. -/
def Phase.answer : Phase → Option (Except Unit (BitVec 8))
  | .found _ | .heard _ => none
  | .absent | .closed _ => some (.ok 0)
  | .unheard _ => some (.ok 1)
  | .sent _ => some (.ok 2)
  | .failed _ => some (.error ())

/-- A call of `op_node_worker_thread_post_message`. -/
structure Post (J : Type) where
  target : BitVec 32
  data : JsMessageData J
  force : Bool
  /-- How many receivers were registered when it began; no part of the program. -/
  began : Nat
  phase : Phase
  deriving Repr, DecidableEq

/-- `ThreadMessagingDomain`: the entries by their `Arc`, in the order they were registered, and
the map of the ids. -/
structure ThreadMessagingDomain (J T : Type) where
  entries : List (ThreadRegistryEntry T)
  registered : BitVec 32 → Option Nat
  posts : List (Post J)

variable {J T : Type}

namespace ThreadMessagingDomain

/-- `ThreadMessagingDomain::new`. -/
def new : ThreadMessagingDomain J T where
  entries := []
  registered := fun _ => none
  posts := []

/-- The entry `e` changes. -/
def update (d : ThreadMessagingDomain J T) (e : Nat)
    (f : ThreadRegistryEntry T → ThreadRegistryEntry T) : ThreadMessagingDomain J T :=
  { d with entries := d.entries.modify e f }

/-- The post `call` goes on. -/
def goesOn (d : ThreadMessagingDomain J T) (call : Nat) (phase : Phase) :
    ThreadMessagingDomain J T :=
  { d with posts := d.posts.modify call fun post => { post with phase } }

/-- `register`: an entry and its receiver, which takes the place of any before it. -/
def register (d : ThreadMessagingDomain J T) (threadId : BitVec 32) :
    ThreadMessagingDomain J T :=
  { d with
    entries := d.entries ++ [{
      threadId
      listenerCount := 0
      channel := .empty
      inTable := true
      receiving := 0
      cancelled := false
      dropped := false }]
    registered := Function.update d.registered threadId (some d.entries.length) }

/-- `unregister`: the id of the entry is given up, if the domain has this entry for it. -/
def unregister (d : ThreadMessagingDomain J T) (e : Nat) : ThreadMessagingDomain J T :=
  { d with registered := match d.entries[e]? with
    | some entry =>
        if d.registered entry.threadId = some e then
          Function.update d.registered entry.threadId none
        else d.registered
    | none => d.registered }

/-! ### The steps of the threads -/

/-- `op_node_worker_thread_set_listener_count`. -/
def setListenerCount (d : ThreadMessagingDomain J T) (threadId count : BitVec 32) :
    ThreadMessagingDomain J T :=
  match d.registered threadId with
  | none => d
  | some e => d.update e fun entry => { entry with listenerCount := count }

/-- `op_node_worker_thread_post_message` begins: the lookup under the lock. -/
def post (d : ThreadMessagingDomain J T) (target : BitVec 32) (data : JsMessageData J)
    (force : Bool) : ThreadMessagingDomain J T :=
  { d with posts := d.posts ++ [{
      target
      data
      force
      began := d.entries.length
      phase := match d.registered target with
        | none => .absent
        | some e => .found e }] }

/-- It reads the count of the listeners. -/
def count (d : ThreadMessagingDomain J T) (call : Nat) : ThreadMessagingDomain J T :=
  match d.posts[call]? with
  | none => d
  | some post =>
      match post.phase with
      | .found e =>
          match d.entries[e]? with
          | none => d
          | some entry =>
              if !post.force && entry.listenerCount = 0 then d.goesOn call (.unheard e)
              else d.goesOn call (.heard e)
      | _ => d

/-- It deserializes its transferables, if it has any, and sends. -/
def send (d : ThreadMessagingDomain J T) (call : Nat) (deserialized : Except Unit (List T)) :
    ThreadMessagingDomain J T :=
  match d.posts[call]? with
  | none => d
  | some post =>
      match post.phase with
      | .heard e =>
          match if post.data.transferables.isEmpty then .ok [] else deserialized with
          | .error () => d.goesOn call (.failed e)
          | .ok transferables =>
              match d.entries[e]? with
              | none => d
              | some entry =>
                  if entry.dropped then d.goesOn call (.closed e)
                  else
                    let message := { call, data := post.data.data, transferables }
                    (d.update e (·.push message)).goesOn call (.sent e)
      | _ => d

/-- `op_node_worker_thread_recv_message` begins: it returns `None` at once if the receiver is no
longer in the table. -/
def recv (d : ThreadMessagingDomain J T) (e : Nat) : ThreadMessagingDomain J T :=
  d.update e fun entry =>
    if entry.inTable then { entry with receiving := entry.receiving + 1 } else entry

/-- A call of it is polled and returns a message, if there is one. The receiver holds its entry,
and so a sender: the channel does not end while it is polled. -/
def receive (d : ThreadMessagingDomain J T) (e : Nat) : ThreadMessagingDomain J T :=
  d.update e ThreadRegistryEntry.receive

/-- A call of it is polled and finds that the receiver was closed: it returns `None`. -/
def cancelled (d : ThreadMessagingDomain J T) (e : Nat) : ThreadMessagingDomain J T :=
  d.update e fun entry =>
    if entry.cancelled then { entry with receiving := entry.receiving - 1 } else entry

/-- A call of it is dropped before it returns. -/
def abandon (d : ThreadMessagingDomain J T) (e : Nat) : ThreadMessagingDomain J T :=
  d.update e fun entry => { entry with receiving := entry.receiving - 1 }

/-- `close`: the receiver leaves the table, its calls are cancelled and its id is given up. -/
def close (d : ThreadMessagingDomain J T) (e : Nat) : ThreadMessagingDomain J T :=
  match d.entries[e]? with
  | none => d
  | some entry =>
      if entry.inTable then
        (d.update e fun entry => { entry with inTable := false, cancelled := true }).unregister e
      else d

/-- The table of the isolate is dropped without closing its resources. -/
def forget (d : ThreadMessagingDomain J T) (e : Nat) : ThreadMessagingDomain J T :=
  d.update e fun entry => { entry with inTable := false }

/-- `Drop for ThreadMessageReceiver`, once nobody holds the receiver. -/
def drop (d : ThreadMessagingDomain J T) (e : Nat) : ThreadMessagingDomain J T :=
  match d.entries[e]? with
  | none => d
  | some entry =>
      if entry.inTable || entry.receiving ≠ 0 then d
      else (d.update e fun entry => { entry with dropped := true }).unregister e

end ThreadMessagingDomain

/-- What a thread may do next; what it cannot do now changes nothing. -/
inductive Action (J T : Type)
  | register (threadId : BitVec 32)
  | setListenerCount (threadId count : BitVec 32)
  | post (target : BitVec 32) (data : JsMessageData J) (force : Bool)
  | count (call : Nat)
  | send (call : Nat) (deserialized : Except Unit (List T))
  | recv (receiver : Nat)
  | receive (receiver : Nat)
  | cancelled (receiver : Nat)
  | abandon (receiver : Nat)
  | close (receiver : Nat)
  | forget (receiver : Nat)
  | drop (receiver : Nat)
  deriving Repr, DecidableEq

open ThreadMessagingDomain

/-- One step of one thread. -/
def step (d : ThreadMessagingDomain J T) : Action J T → ThreadMessagingDomain J T
  | .register threadId => d.register threadId
  | .setListenerCount threadId count => d.setListenerCount threadId count
  | .post target data force => d.post target data force
  | .count call => d.count call
  | .send call deserialized => d.send call deserialized
  | .recv e => d.recv e
  | .receive e => d.receive e
  | .cancelled e => d.cancelled e
  | .abandon e => d.abandon e
  | .close e => d.close e
  | .forget e => d.forget e
  | .drop e => d.drop e

/-- The threads take steps in this order. -/
def runs (actions : List (Action J T)) (d : ThreadMessagingDomain J T) :
    ThreadMessagingDomain J T :=
  actions.foldl step d

/-! ### The invariant -/

/-- The receiver `e` is the last that was registered under the id. -/
def Newest (ids : List (BitVec 32)) (threadId : BitVec 32) (e : Nat) : Prop :=
  ids[e]? = some threadId ∧ ∀ later, e < later → ids[later]? ≠ some threadId

namespace ThreadMessagingDomain

/-- The ids in the order they were registered. -/
def ids (d : ThreadMessagingDomain J T) : List (BitVec 32) := d.entries.map (·.threadId)

/-- The receiver `e` was neither closed nor dropped. -/
def Open (d : ThreadMessagingDomain J T) (e : Nat) : Prop :=
  ∃ entry, d.entries[e]? = some entry ∧ entry.cancelled = false ∧ entry.dropped = false

/-- The domain lists the newest receiver of an id while it is open, and nothing else. -/
def Listed (d : ThreadMessagingDomain J T) : Prop :=
  ∀ threadId e, d.registered threadId = some e ↔ Newest d.ids threadId e ∧ d.Open e

/-- A post has the entry that was the newest of its target when it began. -/
def Addressed (d : ThreadMessagingDomain J T) : Prop :=
  ∀ post ∈ d.posts, post.began ≤ d.entries.length ∧
    ∀ e, post.phase.entry = some e → Newest (d.ids.take post.began) post.target e

/-- What was sent to `e`: the posts that answered 2 for it, each once and with its data. -/
structure Delivers (posts : List (Post J)) (e : Nat) (sent : List (ThreadMessage T)) :
    Prop where
  once : (sent.map (·.call)).Nodup
  answered : ∀ call, call ∈ sent.map (·.call) ↔
    ∃ post, posts[call]? = some post ∧ post.phase = .sent e
  data : ∀ message ∈ sent, ∃ post, posts[message.call]? = some post ∧
    message.data = post.data.data ∧ (post.data.transferables = [] → message.transferables = [])

/-- What holds between the steps. -/
structure Consistent (d : ThreadMessagingDomain J T) : Prop where
  listed : d.Listed
  addressed : d.Addressed
  delivers : ∀ e entry, d.entries[e]? = some entry → Delivers d.posts e entry.channel.sent
  /-- Nobody holds a receiver that was dropped. -/
  dropped : ∀ entry ∈ d.entries, entry.dropped = true →
    entry.inTable = false ∧ entry.receiving = 0

/-! ### What a step may change -/

/-- What a change of an entry leaves as it is. -/
structure Keeps (f : ThreadRegistryEntry T → ThreadRegistryEntry T)
    (entry : ThreadRegistryEntry T) : Prop where
  threadId : (f entry).threadId = entry.threadId
  dropped : (entry.dropped = true → entry.inTable = false ∧ entry.receiving = 0) →
    (f entry).dropped = true → (f entry).inTable = false ∧ (f entry).receiving = 0

/-- The change opens and closes nothing. -/
def KeepsOpen (f : ThreadRegistryEntry T → ThreadRegistryEntry T)
    (entry : ThreadRegistryEntry T) : Prop :=
  (f entry).cancelled = entry.cancelled ∧ (f entry).dropped = entry.dropped

section Update

variable {d : ThreadMessagingDomain J T} {e : Nat}
  {f : ThreadRegistryEntry T → ThreadRegistryEntry T}

theorem entry_of_update {i : Nat} {entry' : ThreadRegistryEntry T}
    (h : (d.update e f).entries[i]? = some entry') :
    ∃ entry, d.entries[i]? = some entry ∧ entry' = if e = i then f entry else entry := by
  rw [update, List.getElem?_modify] at h
  cases hentry : d.entries[i]? with
  | none => simp [hentry] at h
  | some entry =>
      rw [hentry] at h
      exact ⟨entry, rfl, by simpa using h.symm⟩

theorem update_ids (h : ∀ entry, d.entries[e]? = some entry → Keeps f entry) :
    (d.update e f).ids = d.ids := by
  refine List.ext_getElem? fun i => ?_
  simp only [ids, update, List.getElem?_map, List.getElem?_modify, Option.map_eq_map,
    Option.map_map]
  by_cases hi : e = i
  · subst hi
    cases hentry : d.entries[e]? with
    | none => rfl
    | some entry => simp [(h entry hentry).threadId]
  · cases d.entries[i]? <;> simp [hi]

theorem update_open_ne {i : Nat} (hi : i ≠ e) : (d.update e f).Open i ↔ d.Open i := by
  simp only [Open, update, List.getElem?_modify, Option.map_eq_map]
  cases d.entries[i]? <;> simp [Ne.symm hi]

theorem update_open (h : ∀ entry, d.entries[e]? = some entry → KeepsOpen f entry) {i : Nat} :
    (d.update e f).Open i ↔ d.Open i := by
  by_cases hi : i = e
  · subst hi
    cases hentry : d.entries[i]? with
    | none => simp [Open, update, hentry]
    | some entry =>
        obtain ⟨hcancelled, hdropped⟩ := h entry hentry
        simp [Open, update, hentry, hcancelled, hdropped]
  · exact update_open_ne hi

theorem addressed_update (h : d.Addressed)
    (keeps : ∀ entry, d.entries[e]? = some entry → Keeps f entry) :
    (d.update e f).Addressed := by
  intro post hpost
  rw [update_ids keeps]
  simpa [update] using h post hpost

theorem dropped_update
    (h : ∀ entry ∈ d.entries, entry.dropped = true →
      entry.inTable = false ∧ entry.receiving = 0)
    (keeps : ∀ entry, d.entries[e]? = some entry → Keeps f entry) :
    ∀ entry ∈ (d.update e f).entries, entry.dropped = true →
      entry.inTable = false ∧ entry.receiving = 0 := by
  intro entry' hmem
  obtain ⟨i, hi⟩ := List.mem_iff_getElem?.mp hmem
  obtain ⟨entry, hentry, rfl⟩ := entry_of_update hi
  by_cases hei : e = i
  · subst hei
    rw [if_pos rfl]
    exact (keeps entry hentry).dropped (h entry (List.mem_of_getElem? hentry))
  · rw [if_neg hei]
    exact h entry (List.mem_of_getElem? hentry)

theorem delivers_update (h : ∀ i entry, d.entries[i]? = some entry →
      Delivers d.posts i entry.channel.sent)
    (hsent : ∀ entry, d.entries[e]? = some entry → (f entry).channel.sent = entry.channel.sent) :
    ∀ i entry, (d.update e f).entries[i]? = some entry →
      Delivers d.posts i entry.channel.sent := by
  intro i entry' hi
  obtain ⟨entry, hentry, rfl⟩ := entry_of_update hi
  have hsame : (if e = i then f entry else entry).channel.sent = entry.channel.sent := by
    by_cases hei : e = i
    · subst hei
      rw [if_pos rfl, hsent entry hentry]
    · rw [if_neg hei]
  rw [hsame]
  exact h i entry hentry

/-- A change that neither opens, closes nor sends anything. -/
theorem Consistent.update (h : d.Consistent)
    (keeps : ∀ entry, d.entries[e]? = some entry → Keeps f entry)
    (keepsOpen : ∀ entry, d.entries[e]? = some entry → KeepsOpen f entry)
    (hsent : ∀ entry, d.entries[e]? = some entry →
      (f entry).channel.sent = entry.channel.sent) : (d.update e f).Consistent where
  listed threadId i := by
    rw [update_ids keeps, update_open keepsOpen]
    exact h.listed threadId i
  addressed := addressed_update h.addressed keeps
  delivers := delivers_update h.delivers hsent
  dropped := dropped_update h.dropped keeps

/-- Giving up takes one receiver off the list. -/
theorem unregister_registered (h : d.Listed) {d' : ThreadMessagingDomain J T}
    (hids : d'.ids = d.ids) (hregistered : d'.registered = d.registered) {threadId : BitVec 32}
    {i : Nat} : (d'.unregister e).registered threadId = some i ↔
      d.registered threadId = some i ∧ i ≠ e := by
  have hnewest : ∀ threadId, d.registered threadId = some e → d.ids[e]? = some threadId :=
    fun threadId hsome => ((h threadId e).mp hsome).1.1
  have hentry : d.ids[e]? = d'.entries[e]?.map (·.threadId) := by
    rw [← hids, ids, List.getElem?_map]
  unfold unregister
  dsimp only
  rw [hregistered]
  cases hsome : d'.entries[e]? with
  | none =>
      rw [hsome] at hentry
      refine ⟨fun hi => ⟨hi, fun heq => ?_⟩, fun hi => hi.1⟩
      subst heq
      have hid' := hnewest threadId hi
      rw [hentry] at hid'
      cases hid'
  | some entry =>
      rw [hsome] at hentry
      have hid : ∀ threadId, d.registered threadId = some e → entry.threadId = threadId := by
        intro threadId hthis
        have hid' := hnewest threadId hthis
        rw [hentry] at hid'
        simpa using hid'
      dsimp only
      by_cases hthis : d.registered entry.threadId = some e
      · rw [if_pos hthis]
        by_cases heq : threadId = entry.threadId
        · subst heq
          rw [Function.update_self, hthis]
          simp only [reduceCtorEq, Option.some.injEq, false_iff, not_and, not_not]
          exact fun heq => heq.symm
        · rw [Function.update_of_ne heq]
          refine ⟨fun hi => ⟨hi, fun hie => heq ?_⟩, fun hi => hi.1⟩
          subst hie
          exact (hid threadId hi).symm
      · rw [if_neg hthis]
        refine ⟨fun hi => ⟨hi, fun hie => hthis ?_⟩, fun hi => hi.1⟩
        subst hie
        rw [hid threadId hi]
        exact hi

/-- A receiver that is closed or dropped gives its id up, if it still has it. -/
theorem Consistent.unregister (h : d.Consistent)
    (keeps : ∀ entry, d.entries[e]? = some entry → Keeps f entry)
    (gone : ∀ entry, (f entry).cancelled = true ∨ (f entry).dropped = true)
    (hsent : ∀ entry, (f entry).channel.sent = entry.channel.sent) :
    ((d.update e f).unregister e).Consistent where
  listed threadId i := by
    have hclosed : ¬ (d.update e f).Open e := by
      rintro ⟨entry', hentry', hcancelled, hdropped⟩
      obtain ⟨entry, -, rfl⟩ := entry_of_update hentry'
      rw [if_pos rfl] at hcancelled hdropped
      rcases gone entry with hgone | hgone
      · rw [hgone] at hcancelled
        cases hcancelled
      · rw [hgone] at hdropped
        cases hdropped
    rw [unregister_registered h.listed (update_ids keeps) rfl, h.listed threadId i]
    change _ ↔ Newest (d.update e f).ids threadId i ∧ (d.update e f).Open i
    rw [update_ids keeps]
    constructor
    · rintro ⟨⟨hnewest, hopen⟩, hi⟩
      exact ⟨hnewest, (update_open_ne hi).mpr hopen⟩
    · rintro ⟨hnewest, hopen⟩
      have hi : i ≠ e := fun heq => hclosed (heq ▸ hopen)
      exact ⟨⟨hnewest, (update_open_ne hi).mp hopen⟩, hi⟩
  addressed := addressed_update h.addressed keeps
  delivers := delivers_update h.delivers fun entry _ => hsent entry
  dropped := dropped_update h.dropped keeps

end Update

/-! ### The steps keep it -/

section Steps

variable {d : ThreadMessagingDomain J T}

theorem newest_lt {ids : List (BitVec 32)} {threadId : BitVec 32} {e : Nat}
    (h : Newest ids threadId e) : e < ids.length :=
  (List.getElem?_eq_some_iff.mp h.1).1

/-- A registration: the new receiver is the newest of its id, for the others nothing changes. -/
theorem newest_append {ids : List (BitVec 32)} {threadId registered : BitVec 32} {e : Nat} :
    Newest (ids ++ [registered]) threadId e ↔
      if threadId = registered then e = ids.length else Newest ids threadId e := by
  have hlast : (ids ++ [registered])[ids.length]? = some registered := by simp
  split
  · next heq =>
    subst heq
    constructor
    · rintro ⟨hsome, hlater⟩
      have hlt := (List.getElem?_eq_some_iff.mp hsome).1
      rw [List.length_append, List.length_singleton] at hlt
      by_contra hne
      exact hlater ids.length (by omega) hlast
    · rintro rfl
      refine ⟨hlast, fun later hlt => ?_⟩
      rw [List.getElem?_eq_none (by simp; omega)]
      exact fun h => (by cases h)
  · next hne =>
    have hsame : ∀ i : Nat, (ids ++ [registered])[i]? = some threadId ↔
        ids[i]? = some threadId := by
      intro i
      rcases Nat.lt_trichotomy i ids.length with hlt | heq | hgt
      · rw [List.getElem?_append_left hlt]
      · subst heq
        rw [hlast]
        simp [Ne.symm hne]
      · rw [List.getElem?_eq_none (by simp; omega), List.getElem?_eq_none (by omega)]
    simp only [Newest, hsame, ne_eq]

theorem Consistent.register (h : d.Consistent) (threadId : BitVec 32) :
    (d.register threadId).Consistent := by
  have hids : (d.register threadId).ids = d.ids ++ [threadId] := by
    simp [ids, ThreadMessagingDomain.register]
  have hlength : d.ids.length = d.entries.length := List.length_map ..
  have hbefore : ∀ i, i < d.entries.length →
      (d.register threadId).entries[i]? = d.entries[i]? := fun i hi =>
    List.getElem?_append_left hi
  have hnew : ∀ entry, (d.register threadId).entries[d.entries.length]? = some entry →
      entry.cancelled = false ∧ entry.dropped = false ∧ entry.channel = .empty := by
    intro entry hentry
    simp only [ThreadMessagingDomain.register, List.getElem?_concat_length,
      Option.some.injEq] at hentry
    subst hentry
    exact ⟨rfl, rfl, rfl⟩
  have hcases : ∀ i entry, (d.register threadId).entries[i]? = some entry →
      d.entries[i]? = some entry ∨ i = d.entries.length := by
    intro i entry hentry
    have hlt := (List.getElem?_eq_some_iff.mp hentry).1
    simp only [ThreadMessagingDomain.register, List.length_append, List.length_singleton] at hlt
    rcases Nat.lt_or_eq_of_le (Nat.le_of_lt_succ hlt) with hi | hi
    · exact .inl (by rw [← hbefore i hi, hentry])
    · exact .inr hi
  refine ⟨fun other e => ?_, fun post hpost => ?_, fun e entry hentry => ?_,
    fun entry hmem hdropped => ?_⟩
  · rw [hids, newest_append]
    change Function.update d.registered threadId _ other = _ ↔ _
    by_cases hother : other = threadId
    · subst hother
      rw [Function.update_self, if_pos rfl, hlength, Option.some.injEq]
      refine ⟨fun he => ⟨he.symm, ?_⟩, fun he => he.1.symm⟩
      subst he
      refine ⟨_, List.getElem?_concat_length .., rfl, rfl⟩
    · rw [Function.update_of_ne hother, if_neg hother, h.listed other e]
      refine and_congr_right fun hnewest => ?_
      rw [Open, Open, hbefore e (hlength ▸ newest_lt hnewest)]
  · obtain ⟨hbegan, hentry⟩ := h.addressed post hpost
    refine ⟨?_, fun e he => ?_⟩
    · simp only [ThreadMessagingDomain.register, List.length_append]
      omega
    · rw [hids, List.take_append_of_le_length (by omega)]
      exact hentry e he
  · rcases hcases e entry hentry with hold | rfl
    · exact h.delivers e entry hold
    · rw [(hnew entry hentry).2.2]
      refine ⟨List.nodup_nil, fun call => ?_, nofun⟩
      simp only [Channel.empty_sent, List.map_nil, List.not_mem_nil, false_iff]
      rintro ⟨post, hpost, hsent⟩
      -- a post that answered for it would have looked it up before it was there
      obtain ⟨hbegan, hnewest⟩ := h.addressed post (List.mem_of_getElem? hpost)
      have hlt := newest_lt (hnewest d.entries.length (by rw [hsent]; rfl))
      rw [List.length_take] at hlt
      omega
  · obtain ⟨i, hi⟩ := List.mem_iff_getElem?.mp hmem
    rcases hcases i entry hi with hold | rfl
    · exact h.dropped entry (List.mem_of_getElem? hold) hdropped
    · rw [(hnew entry hi).2.1] at hdropped
      cases hdropped

/-! #### The posts -/

theorem Consistent.post (h : d.Consistent) (target : BitVec 32) (data : JsMessageData J)
    (force : Bool) : (d.post target data force).Consistent where
  listed := h.listed
  addressed post hpost := by
    rcases List.mem_append.mp hpost with hold | hnew
    · exact h.addressed post hold
    · obtain rfl := List.mem_singleton.mp hnew
      refine ⟨le_rfl, fun e he => ?_⟩
      have hregistered : d.registered target = some e := by
        cases hlookup : d.registered target with
        | none =>
            rw [hlookup] at he
            cases he
        | some found =>
            rw [hlookup] at he
            exact he
      have htake : d.ids.take d.entries.length = d.ids :=
        List.take_of_length_le (List.length_map ..).le
      change Newest (d.ids.take d.entries.length) target e
      rw [htake]
      exact ((h.listed target e).mp hregistered).1
  delivers e entry hentry := by
    obtain ⟨once, answered, hdata⟩ := h.delivers e entry hentry
    refine ⟨once, fun call => (answered call).trans ?_, fun message hmessage => ?_⟩
    · constructor
      · rintro ⟨post, hpost, hsent⟩
        have hlt := (List.getElem?_eq_some_iff.mp hpost).1
        exact ⟨post, (List.getElem?_append_left hlt).trans hpost, hsent⟩
      · rintro ⟨post, hpost, hsent⟩
        rw [ThreadMessagingDomain.post, List.getElem?_append] at hpost
        split at hpost
        · exact ⟨post, hpost, hsent⟩
        · -- the new post has not sent anything
          rw [List.getElem?_singleton] at hpost
          split at hpost
          · obtain rfl := by simpa using hpost
            cases hlookup : d.registered target <;> simp [hlookup] at hsent
          · cases hpost
    · obtain ⟨post, hpost, hsame⟩ := hdata message hmessage
      have hlt := (List.getElem?_eq_some_iff.mp hpost).1
      exact ⟨post, (List.getElem?_append_left hlt).trans hpost, hsame⟩
  dropped := h.dropped

theorem post_goesOn (posts : List (Post J)) (call : Nat) (phase : Phase) (i : Nat) :
    (posts.modify call fun post => { post with phase })[i]? =
      posts[i]?.map fun post => if call = i then { post with phase } else post := by
  rw [List.getElem?_modify]
  rfl

theorem addressed_goesOn (h : d.Addressed) {call : Nat} {post : Post J}
    (hpost : d.posts[call]? = some post) {phase : Phase}
    (hentry : phase.entry = post.phase.entry) : (d.goesOn call phase).Addressed := by
  intro post' hmem
  obtain ⟨i, hi⟩ := List.mem_iff_getElem?.mp hmem
  rw [goesOn, post_goesOn] at hi
  obtain ⟨old, hold, rfl⟩ := Option.map_eq_some_iff.mp hi
  have haddressed := h old (List.mem_of_getElem? hold)
  split
  · next hcall =>
    subst hcall
    rw [hpost] at hold
    cases hold
    rw [hentry]
    exact haddressed
  · exact haddressed

section Delivers

variable {posts : List (Post J)} {call e : Nat} {post : Post J} {phase : Phase}
  {sent : List (ThreadMessage T)}

/-- A post that is not done answers for nobody. -/
theorem Delivers.unanswered (h : Delivers posts e sent) (hpost : posts[call]? = some post)
    (hphase : post.phase ≠ .sent e) : call ∉ sent.map (·.call) := by
  intro hmem
  obtain ⟨post', hpost', hsent⟩ := (h.answered call).mp hmem
  rw [hpost] at hpost'
  cases hpost'
  exact hphase hsent

theorem Delivers.data_goesOn (h : Delivers posts e sent) :
    ∀ message ∈ sent, ∃ post',
      (posts.modify call fun post => { post with phase })[message.call]? = some post' ∧
      message.data = post'.data.data ∧
      (post'.data.transferables = [] → message.transferables = []) := by
  intro message hmessage
  obtain ⟨old, hold, hsame⟩ := h.data message hmessage
  rw [post_goesOn, hold]
  refine ⟨_, rfl, ?_⟩
  split <;> exact hsame

/-- A post goes on without sending to `e`. -/
theorem Delivers.other (h : Delivers posts e sent) (hpost : posts[call]? = some post)
    (hbefore : post.phase ≠ .sent e) (hphase : phase ≠ .sent e) :
    Delivers (posts.modify call fun post => { post with phase }) e sent where
  once := h.once
  answered i := by
    rw [h.answered i, post_goesOn]
    by_cases hi : call = i
    · subst hi
      simp [hpost, hbefore, hphase]
    · simp [hi]
  data := h.data_goesOn

/-- A post sends its message to `e`. -/
theorem Delivers.push (h : Delivers posts e sent) (hpost : posts[call]? = some post)
    (hbefore : post.phase ≠ .sent e) {transferables : List T}
    (htransferables : post.data.transferables = [] → transferables = []) :
    Delivers (posts.modify call fun post => { post with phase := .sent e }) e
      (sent ++ [{ call, data := post.data.data, transferables }]) where
  once := by
    rw [List.map_append]
    refine List.nodup_append.mpr ⟨h.once, List.nodup_singleton _, ?_⟩
    intro other hother call' hcall' heq
    obtain rfl : call' = call := by simpa using hcall'
    exact h.unanswered hpost hbefore (heq ▸ hother)
  answered i := by
    rw [List.map_append, List.mem_append, h.answered i, post_goesOn]
    by_cases hi : call = i
    · subst hi
      simp [hpost]
    · simp [hi, Ne.symm hi]
  data message hmessage := by
    rcases List.mem_append.mp hmessage with hold | hnew
    · exact h.data_goesOn message hold
    · obtain rfl := List.mem_singleton.mp hnew
      exact ⟨{ post with phase := .sent e }, by simp [hpost], rfl, htransferables⟩

end Delivers

/-- A post goes on without sending. -/
theorem Consistent.goesOn (h : d.Consistent) {call : Nat} {post : Post J}
    (hpost : d.posts[call]? = some post) {phase : Phase}
    (hentry : phase.entry = post.phase.entry) (hbefore : ∀ e, post.phase ≠ .sent e)
    (hphase : ∀ e, phase ≠ .sent e) : (d.goesOn call phase).Consistent where
  listed := h.listed
  addressed := addressed_goesOn h.addressed hpost hentry
  delivers e entry he := (h.delivers e entry he).other hpost (hbefore e) (hphase e)
  dropped := h.dropped

theorem Consistent.count (h : d.Consistent) (call : Nat) : (d.count call).Consistent := by
  unfold ThreadMessagingDomain.count
  split
  · exact h
  · next post hpost =>
    split
    · next e hphase =>
      have hbefore : ∀ e, post.phase ≠ .sent e := fun _ heq => by simp [hphase] at heq
      split
      · exact h
      · split
        · exact h.goesOn hpost (by rw [hphase]; rfl) hbefore fun _ h => (by cases h)
        · exact h.goesOn hpost (by rw [hphase]; rfl) hbefore fun _ h => (by cases h)
    · exact h

theorem Consistent.send (h : d.Consistent) (call : Nat)
    (deserialized : Except Unit (List T)) : (d.send call deserialized).Consistent := by
  unfold ThreadMessagingDomain.send
  split
  · exact h
  · next post hpost =>
    split
    · next e hphase =>
      have hbefore : ∀ e, post.phase ≠ .sent e := fun _ heq => by simp [hphase] at heq
      split
      · exact h.goesOn hpost (by rw [hphase]; rfl) hbefore fun _ h => (by cases h)
      · next transferables hdeserialized =>
        have htransferables : post.data.transferables = [] → transferables = [] := by
          intro hnil
          simpa [hnil] using hdeserialized.symm
        split
        · exact h
        · next entry hentry =>
          split
          · exact h.goesOn hpost (by rw [hphase]; rfl) hbefore fun _ h => (by cases h)
          · dsimp only
            set message : ThreadMessage T := { call, data := post.data.data, transferables }
            have keeps : ∀ entry : ThreadRegistryEntry T, d.entries[e]? = some entry →
                Keeps (·.push message) entry := fun entry _ => ⟨rfl, fun hold => hold⟩
            have keepsOpen : ∀ entry : ThreadRegistryEntry T, d.entries[e]? = some entry →
                KeepsOpen (·.push message) entry := fun entry _ => ⟨rfl, rfl⟩
            refine ⟨fun threadId i => ?_, ?_, fun i entry' hi => ?_, ?_⟩
            · change d.registered threadId = some i ↔
                Newest (d.update e (·.push message)).ids threadId i ∧
                  (d.update e (·.push message)).Open i
              rw [update_ids keeps, update_open keepsOpen]
              exact h.listed threadId i
            · exact addressed_goesOn (addressed_update h.addressed keeps) hpost
                (by rw [hphase]; rfl)
            · obtain ⟨old, hold, rfl⟩ := entry_of_update hi
              by_cases hei : e = i
              · subst hei
                rw [if_pos rfl]
                change Delivers _ e (old.channel.push message).sent
                rw [Channel.push_sent]
                exact (h.delivers e old hold).push hpost (hbefore e) htransferables
              · rw [if_neg hei]
                exact (h.delivers i old hold).other hpost (hbefore i)
                  fun heq => hei (by simpa using heq)
            · exact dropped_update h.dropped keeps
    · exact h

/-- Every step keeps the invariant. -/
theorem Consistent.step (h : d.Consistent) (action : Action J T) :
    (ThreadMessaging.step d action).Consistent := by
  cases action with
  | register threadId => exact h.register threadId
  | setListenerCount threadId count =>
      unfold ThreadMessaging.step setListenerCount
      dsimp only
      split
      · exact h
      · exact h.update (fun _ _ => ⟨rfl, fun hold => hold⟩) (fun _ _ => ⟨rfl, rfl⟩)
          fun _ _ => rfl
  | post target data force => exact h.post target data force
  | count call => exact h.count call
  | send call deserialized => exact h.send call deserialized
  | recv e =>
      refine h.update (fun entry _ => ⟨?_, ?_⟩) (fun entry _ => ⟨?_, ?_⟩) fun entry _ => ?_
      all_goals cases hin : entry.inTable <;> simp [hin]
  | receive e =>
      refine h.update (fun entry _ => ?_) (fun entry _ => ?_) fun entry _ => ?_
      all_goals
        rcases entry.receive_cases with hsame | ⟨message, channel, hpositive, hpop, hreceive⟩
      · exact ⟨by rw [hsame], fun hold => by rw [hsame]; exact hold⟩
      · refine ⟨by rw [hreceive], fun hold => ?_⟩
        rw [hreceive]
        intro hdropped
        have hzero := (hold hdropped).2
        omega
      · exact ⟨by rw [hsame], by rw [hsame]⟩
      · exact ⟨by rw [hreceive], by rw [hreceive]⟩
      · rw [hsame]
      · rw [hreceive]
        exact Channel.sent_of_pop hpop
  | cancelled e =>
      refine h.update (fun entry _ => ⟨?_, ?_⟩) (fun entry _ => ⟨?_, ?_⟩) fun entry _ => ?_
      all_goals cases hcancelled : entry.cancelled <;> simp +contextual [hcancelled]
  | abandon e =>
      refine h.update (fun entry _ => ⟨rfl, fun hold hdropped => ?_⟩) (fun _ _ => ⟨rfl, rfl⟩)
        fun _ _ => rfl
      obtain ⟨hin, hzero⟩ := hold hdropped
      exact ⟨hin, by simp [hzero]⟩
  | close e =>
      unfold ThreadMessaging.step close
      dsimp only
      split
      · exact h
      · split
        · exact h.unregister (fun _ _ => ⟨rfl, fun hold hdropped => ⟨rfl, (hold hdropped).2⟩⟩)
            (fun _ => .inl rfl) fun _ => rfl
        · exact h
  | forget e =>
      exact h.update (fun _ _ => ⟨rfl, fun hold hdropped => ⟨rfl, (hold hdropped).2⟩⟩)
        (fun _ _ => ⟨rfl, rfl⟩) fun _ _ => rfl
  | drop e =>
      unfold ThreadMessaging.step drop
      dsimp only
      split
      · exact h
      · next entry hentry =>
        split
        · exact h
        · next hheld =>
          refine h.unregister (fun entry' hentry' => ⟨rfl, fun _ _ => ?_⟩) (fun _ => .inr rfl)
            fun _ => rfl
          rw [hentry] at hentry'
          cases hentry'
          simpa using hheld

theorem consistent_new : (new : ThreadMessagingDomain J T).Consistent where
  listed threadId e := by simp [new, Newest, ids]
  addressed post hpost := by cases hpost
  delivers e entry hentry := by simp [new] at hentry
  dropped entry hmem := by cases hmem

theorem Consistent.runs (actions : List (Action J T)) (h : d.Consistent) :
    (ThreadMessaging.runs actions d).Consistent := by
  induction actions generalizing d with
  | nil => exact h
  | cons action rest ih => exact ih (h.step action)

/-! ### What was sent and received stays so -/

/-- What a receiver is later. -/
structure Later (entry entry' : ThreadRegistryEntry T) : Prop where
  threadId : entry'.threadId = entry.threadId
  sent : entry.channel.sent <+: entry'.channel.sent
  delivered : entry.channel.delivered <+: entry'.channel.delivered
  /-- A receiver that was dropped is sent nothing and receives nothing any more. -/
  dropped : entry.dropped = true → entry'.dropped = true ∧ entry'.channel = entry.channel

theorem Later.refl (entry : ThreadRegistryEntry T) : Later entry entry :=
  ⟨rfl, List.prefix_rfl, List.prefix_rfl, fun h => ⟨h, rfl⟩⟩

theorem Later.trans {entry entry' entry'' : ThreadRegistryEntry T} (first : Later entry entry')
    (second : Later entry' entry'') : Later entry entry'' where
  threadId := second.threadId.trans first.threadId
  sent := first.sent.trans second.sent
  delivered := first.delivered.trans second.delivered
  dropped h := by
    obtain ⟨hdropped, hchannel⟩ := first.dropped h
    obtain ⟨hdropped', hchannel'⟩ := second.dropped hdropped
    exact ⟨hdropped', hchannel'.trans hchannel⟩

/-- A change beside the channel. -/
theorem Later.beside {entry entry' : ThreadRegistryEntry T}
    (hid : entry'.threadId = entry.threadId) (hchannel : entry'.channel = entry.channel)
    (hdropped : entry.dropped = true → entry'.dropped = true) : Later entry entry' :=
  ⟨hid, by rw [hchannel], by rw [hchannel], fun h => ⟨hdropped h, hchannel⟩⟩

theorem later_update {e : Nat} {f : ThreadRegistryEntry T → ThreadRegistryEntry T}
    (h : ∀ entry, d.entries[e]? = some entry → Later entry (f entry)) {i : Nat}
    {entry : ThreadRegistryEntry T} (hentry : d.entries[i]? = some entry) :
    ∃ entry', (d.update e f).entries[i]? = some entry' ∧ Later entry entry' := by
  rw [ThreadMessagingDomain.update, List.getElem?_modify, hentry]
  refine ⟨_, rfl, ?_⟩
  by_cases hei : e = i
  · subst hei
    simpa using h entry hentry
  · simpa [hei] using Later.refl entry

theorem Consistent.step_later (h : d.Consistent) (action : Action J T) {i : Nat}
    {entry : ThreadRegistryEntry T} (hentry : d.entries[i]? = some entry) :
    ∃ entry', (ThreadMessaging.step d action).entries[i]? = some entry' ∧
      Later entry entry' := by
  have hsame : ∃ entry', d.entries[i]? = some entry' ∧ Later entry entry' :=
    ⟨entry, hentry, .refl entry⟩
  cases action with
  | register threadId =>
      have hlt := (List.getElem?_eq_some_iff.mp hentry).1
      exact ⟨entry, (List.getElem?_append_left hlt).trans hentry, .refl entry⟩
  | setListenerCount threadId count =>
      unfold ThreadMessaging.step setListenerCount
      dsimp only
      split
      · exact hsame
      · refine later_update (fun _ _ => ?_) hentry
        exact .beside rfl rfl id
  | post target data force => exact hsame
  | count call =>
      unfold ThreadMessaging.step ThreadMessagingDomain.count
      dsimp only
      repeat' split
      all_goals exact hsame
  | send call deserialized =>
      unfold ThreadMessaging.step ThreadMessagingDomain.send
      dsimp only
      split
      · exact hsame
      · split
        · next e hphase =>
          split
          · exact hsame
          · split
            · exact hsame
            · next target htarget =>
              split
              · exact hsame
              · next hopen =>
                refine later_update (fun entry' hentry' => ?_) hentry
                rw [htarget] at hentry'
                cases hentry'
                refine ⟨rfl, ?_, List.prefix_rfl, fun hdropped => absurd hdropped hopen⟩
                change _ <+: (target.channel.push _).sent
                rw [Channel.push_sent]
                exact List.prefix_append _ _
        · exact hsame
  | recv e =>
      refine later_update (fun entry' _ => ?_) hentry
      split
      · exact .beside rfl rfl id
      · exact .refl entry'
  | receive e =>
      refine later_update (fun entry' hentry' => ?_) hentry
      rcases entry'.receive_cases with hreceive | ⟨message, channel, hpositive, hpop, hreceive⟩
      · rw [hreceive]
        exact .refl entry'
      · rw [hreceive]
        refine ⟨rfl, by rw [Channel.sent_of_pop hpop], ?_, fun hdropped => ?_⟩
        · rw [Channel.delivered_of_pop hpop]
          exact List.prefix_append _ _
        · have hzero := (h.dropped entry' (List.mem_of_getElem? hentry') hdropped).2
          omega
  | cancelled e =>
      refine later_update (fun entry' _ => ?_) hentry
      split
      · exact .beside rfl rfl id
      · exact .refl entry'
  | abandon e =>
      refine later_update (fun _ _ => ?_) hentry
      exact .beside rfl rfl id
  | close e =>
      unfold ThreadMessaging.step close
      dsimp only
      split
      · exact hsame
      · split
        · refine later_update (fun _ _ => ?_) hentry
          exact .beside rfl rfl id
        · exact hsame
  | forget e =>
      refine later_update (fun _ _ => ?_) hentry
      exact .beside rfl rfl id
  | drop e =>
      unfold ThreadMessaging.step drop
      dsimp only
      split
      · exact hsame
      · split
        · exact hsame
        · refine later_update (fun _ _ => ?_) hentry
          exact .beside rfl rfl fun _ => rfl

theorem Consistent.runs_later (h : d.Consistent) (actions : List (Action J T)) {i : Nat}
    {entry : ThreadRegistryEntry T} (hentry : d.entries[i]? = some entry) :
    ∃ entry', (ThreadMessaging.runs actions d).entries[i]? = some entry' ∧
      Later entry entry' := by
  induction actions generalizing d entry with
  | nil => exact ⟨entry, hentry, .refl entry⟩
  | cons action rest ih =>
      obtain ⟨entry', hentry', hlater⟩ := h.step_later action hentry
      obtain ⟨entry'', hentry'', hlater'⟩ := ih (h.step action) hentry'
      exact ⟨entry'', hentry'', hlater.trans hlater'⟩

end Steps

end ThreadMessagingDomain

/-- **In every order of steps** the domain lists the newest receiver of an id while it is open;
what was sent to a receiver are the messages of the posts that answered 2 for it, each once and
addressed to it when it was the newest of its id; it has received a prefix of them; and all of
this stays so, whatever happens next. -/
theorem thread_messages (actions more : List (Action J T)) :
    let d := runs actions (new : ThreadMessagingDomain J T)
    d.Listed ∧ d.Addressed ∧
    ∀ e entry, d.entries[e]? = some entry →
      Delivers d.posts e entry.channel.sent ∧
      entry.channel.delivered <+: entry.channel.sent ∧
      ∃ entry', (runs more d).entries[e]? = some entry' ∧ Later entry entry' := by
  have h := consistent_new.runs actions
  exact ⟨h.listed, h.addressed, fun e entry hentry =>
    ⟨h.delivers e entry hentry, entry.channel.delivered_prefix, h.runs_later more hentry⟩⟩

end Libdeno.ThreadMessaging
