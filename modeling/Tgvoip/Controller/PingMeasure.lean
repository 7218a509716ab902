import Tgvoip.Controller.ThreadRoutes

/-!
# PingMeasure — what pings and pongs measure

A pong counts as the answer to the last ping of an endpoint if it has that
ping's number. But pings are not numbered: `lastPingSeq` is zero wherever an
endpoint is made or reset, `SendRelayPings` does not set it, and the pong of
`ProcessExtraData` is sent with the number zero, which is no answer to
anything. So nothing is ever measured.

The runs here are those of two controllers. Which packet of the other end a
datagram carries, which ping each pong answers, and which pings were answered
is kept as history.
-/

namespace Tgvoip

open ByteReader Fallible Controller

/-- The two ends of a call that is pinged through. -/
structure PingCall where
  ends : Bool → MessageThread
  /-- History: for the pongs of each end (by their calls of `SendExtra`) the other
  end's pings that they answer. -/
  answers : Bool → List (ℕ × ℕ) := fun _ => []
  /-- History: the pings of each end whose answers came back in time. -/
  returned : Bool → List ℕ := fun _ => []

/-- An event at one of the two ends. -/
structure PingEvent where
  side : Bool
  now : Time
  event : ThreadEvent
  /-- For a datagram, which of the other end's packets it is. -/
  carried : Option ℕ := none

namespace PingEvent

/-- The endpoint a datagram comes from. -/
def src (e : PingEvent) : Option Int64 :=
  match e.event with
  | .datagram src _ _ _ => some src
  | _ => none

end PingEvent

namespace PingCall

variable (env : Bool → Platform) (call : PingCall)

/-- What the carried packet took along. -/
def occurrences (e : PingEvent) : List (ℕ × WrappedExtra) :=
  (e.carried.bind fun i => (call.ends !e.side).c.preparedOccurrences[i]?).getD []

/-- The pings of one end to an endpoint, the last one at the end. -/
def pingsOn (side : Bool) (key : Int64) : List SentPing :=
  (call.ends side).c.pings.filter (·.key == key)

/-- The carried packet has a pong that answers the ping. -/
def brings (e : PingEvent) (p : SentPing) : Bool :=
  (call.occurrences e).any fun o =>
    o.2.d.kind == .pong && (call.answers !e.side).contains (o.1, p.occurrence)

/-- The ping whose answer comes back on its endpoint, for the first time and
before the next ping there. -/
def inTime (e : PingEvent) : Option SentPing := do
  let src ← e.src
  let p ← (call.pingsOn e.side src).getLast?
  if call.brings e p && !(call.returned e.side).contains p.occurrence then some p else none

/-- The answer to a ping of the endpoint comes back, but not in time. -/
def late (e : PingEvent) : Bool :=
  (e.src.any fun src => (call.pingsOn e.side src).any (call.brings e)) && (call.inTime e).isNone

/-- The pongs that were prepared since, with the pings of the packet they answer. -/
def newAnswers (e : PingEvent) (t : MessageThread) : List (ℕ × ℕ) :=
  let before := (call.ends e.side).c
  let pongs := ((t.c.preparedOccurrences.drop before.preparedOccurrences.length).flatten.filter
    fun o => o.2.d.kind == .pong && before.issuedExtras ≤ o.1).map (·.1)
  let pings := ((call.occurrences e).filter (·.2.d.kind == .ping)).map (·.1)
  pongs.flatMap fun pong => pings.map fun ping => (pong, ping)

def step (e : PingEvent) : Except Fault PingCall := do
  let t ← (call.ends e.side).step (env e.side) (e.now, e.event)
  pure {
    ends := Function.update call.ends e.side t
    answers := Function.update call.answers e.side
      (call.answers e.side ++ call.newAnswers e t)
    returned := Function.update call.returned e.side
      (call.returned e.side ++ ((call.inTime e).map (·.occurrence)).toList) }

/-- The samples that were added to an endpoint's `rtts`. -/
def samplesAt (side : Bool) (key : Int64) : List Time :=
  (((call.ends side).c.endpoints.at? key).map (·.samples)).getD []

/-- Packets arrive in datagrams only, each as one that the other end prepared. -/
def honest (e : PingEvent) : Bool :=
  match e.event, e.carried with
  | .handler (.packet _ _), _ => false
  | .datagram _ _ _ [p], some i =>
    (call.ends !e.side).c.preparedPackets[i]?.any fun sent =>
      p.seq == sent.seq && p.extraSignaling.map (·.d) == sent.extraSignaling.map (·.d)
  | .datagram _ _ _ _, _ => false
  | _, carried => carried.isNone

/-- **Round trips are measured**: an answer in time adds one sample, the time since
its ping; any other answer adds none. -/
structure Measures (call : PingCall) (e : PingEvent) : Prop where
  inTime : ∀ call' src p, call.step env e = .ok call' → e.src = some src →
    call.inTime e = some p →
    call'.samplesAt e.side src = call.samplesAt e.side src ++ [e.now - p.time]
  late : ∀ call' src, call.step env e = .ok call' → e.src = some src → call.late e = true →
    call'.samplesAt e.side src = call.samplesAt e.side src

/-- No answer comes back in time. -/
def NoneInTime (call : PingCall) (e : PingEvent) : Prop :=
  ∀ call', call.step env e = .ok call' → call.inTime e = none

/-- Nothing was measured yet, and no ping was numbered. -/
structure Unmeasured (call : PingCall) : Prop where
  ordered : ∀ side, (call.ends side).c.endpoints.Ordered
  endpoints : ∀ side, ∀ x ∈ (call.ends side).c.endpoints, x.2.Unmeasured

variable {env} {call} {call' : PingCall} {e : PingEvent}

theorem step_ok (h : call.step env e = .ok call') :
    ∃ t, (call.ends e.side).step (env e.side) (e.now, e.event) = .ok t ∧
      call'.ends = Function.update call.ends e.side t := by
  obtain ⟨t, ht, h⟩ := bind_eq_ok.mp h
  exact ⟨t, ht, congrArg PingCall.ends (pure_eq_ok.mp h).symm⟩

/-- **Nothing is ever measured.** -/
theorem Unmeasured.step (hcall : call.Unmeasured) (h : call.step env e = .ok call') :
    call'.Unmeasured := by
  obtain ⟨t, ht, hends⟩ := step_ok h
  have hordered := hcall.ordered e.side
  have htable := MessageThread.step_table hordered ht
  have hfound := MessageThread.found_ordered (e := (e.now, e.event)) hordered
  refine ⟨?_, ?_⟩
  · intro side
    rw [hends]
    by_cases hside : side = e.side
    · rw [hside, Function.update_self]
      exact htable.ordered hfound
    · rw [Function.update_of_ne hside]
      exact hcall.ordered side
  · intro side
    rw [hends]
    by_cases hside : side = e.side
    · rw [hside, Function.update_self]
      apply htable.unmeasured
      intro x hx
      exact hcall.endpoints e.side x (MessageThread.found_subset hx)
    · rw [Function.update_of_ne hside]
      exact hcall.endpoints side

theorem Unmeasured.samplesAt (hcall : call.Unmeasured) (side : Bool) (key : Int64) :
    call.samplesAt side key = [] := by
  unfold PingCall.samplesAt
  cases he : (call.ends side).c.endpoints.at? key with
  | none => rfl
  | some ep => exact (hcall.endpoints side _ (Endpoints.mem_of_at?_eq_some he)).samples

/-- A step measures what it should exactly if there is nothing to measure. -/
theorem Unmeasured.measures_iff (hcall : call.Unmeasured) :
    call.Measures env e ↔ call.NoneInTime env e := by
  constructor
  · intro h call' hstep
    -- an answer in time would have to add a sample, and none is added
    by_contra hanswered
    obtain ⟨p, hp⟩ := Option.ne_none_iff_exists'.mp hanswered
    obtain ⟨src, hsrc, -⟩ := Option.bind_eq_some_iff.mp hp
    have hadds := h.inTime call' src p hstep hsrc hp
    rw [(hcall.step hstep).samplesAt, hcall.samplesAt] at hadds
    cases hadds
  · intro h
    refine ⟨?_, ?_⟩
    · intro call' src p hstep _ hp
      rw [h call' hstep] at hp
      cases hp
    · intro call' src hstep _ _
      rw [(hcall.step hstep).samplesAt, hcall.samplesAt]

/-- **Round trips are measured in a run** exactly if no answer to a ping comes back
in time. -/
theorem round_trips_measured_iff {events : List PingEvent} (hstart : call.Unmeasured) :
    AlongOk (step env) (Measures env) call events ↔
      AlongOk (step env) (NoneInTime env) call events := by
  constructor
  · exact AlongOk.strengthen (I := Unmeasured) (fun _ _ _ hcall _ h => hcall.step h)
      (fun _ _ hcall h => hcall.measures_iff.mp h) hstart
  · exact AlongOk.strengthen (I := Unmeasured) (fun _ _ _ hcall _ h => hcall.step h)
      (fun _ _ hcall h => hcall.measures_iff.mpr h) hstart

/-! ## On fixed inputs -/

instance (call : PingCall) (e : PingEvent) : Decidable (NoneInTime env call e) :=
  match h : call.step env e with
  | .error _ => .isTrue fun _ hok => nomatch h.symm.trans hok
  | .ok call' => decidable_of_iff (call.inTime e = none)
      ⟨fun hnone _ _ => hnone, fun hall => hall call' h⟩

/-- Two ends that are established over two UDP relays. -/
def established : PingCall where
  ends := fun _ =>
    { c := { sampleCall {} with
        state := .established, preferredRelay := 1
        endpoints := [(1, { id := 1, type := .udpRelay }), (2, { id := 2, type := .udpRelay })] } }

theorem established_unmeasured : established.Unmeasured where
  ordered := fun _ => List.pairwise_pair.mpr (by decide)
  endpoints := by
    intro side x hx
    simp only [established, List.mem_cons, List.not_mem_nil, or_false] at hx
    rcases hx with rfl | rfl
    · exact ⟨rfl, rfl⟩
    · exact ⟨rfl, rfl⟩

/-- A packet of one extra arrives from the first relay. -/
def arrives (side : Bool) (now : Time) (i : ℕ) (x : Extra) : PingEvent where
  side := side
  now := now
  event := .datagram 1 (.ipv4 0) 0 [{ seq := 1, extraSignaling := [{ d := x }] }]
  carried := some i

/-- A ping is sent, and answered a second later. -/
def pinged : List PingEvent :=
  [{ side := false, now := 15, event := .sendRelayPings }, arrives true 16 0 .ping]

/-- The answer comes back when the next ping was sent. -/
theorem round_trips_measured_late :
    AlongOk (step fun _ => samplePlatform) (Measures fun _ => samplePlatform) established
      (pinged ++ [{ side := false, now := 26, event := .sendRelayPings },
        arrives false 27 0 (.pong {})]) :=
  (round_trips_measured_iff established_unmeasured).mpr (by decide +kernel)

/-- The answer comes back two seconds after the ping. -/
theorem round_trips_measured_fails :
    ¬ ∀ (env : Bool → Platform) (call : PingCall) (events : List PingEvent), call.Unmeasured →
      AlongOk (step env) (fun call e => call.honest e = true) call events →
      AlongOk (step env) (Measures env) call events := by
  intro h
  have hrun : AlongOk (step fun _ => samplePlatform) (Measures fun _ => samplePlatform)
      established (pinged ++ [arrives false 17 0 (.pong {})]) :=
    h _ _ _ established_unmeasured (by decide +kernel)
  have hvalues : (pinged.foldlM (step fun _ => samplePlatform) established).map (fun call =>
      ((call.inTime (arrives false 17 0 (.pong {}))).map (·.time), call.samplesAt false 1,
        (call.step (fun _ => samplePlatform) (arrives false 17 0 (.pong {}))).map fun call' =>
          call'.samplesAt false 1)) = .ok (some 15, [], .ok []) := by
    decide +kernel
  obtain ⟨call, hcall, hvalue⟩ := exists_of_map_eq_ok hvalues
  obtain ⟨htime, hvalue⟩ := Prod.mk.inj hvalue
  obtain ⟨hbefore, hstep⟩ := Prod.mk.inj hvalue
  obtain ⟨call', hstep, hafter⟩ := exists_of_map_eq_ok hstep
  obtain ⟨p, hp, -⟩ := Option.map_eq_some_iff.mp htime
  have hadds := (hrun.last hcall).inTime call' 1 p hstep rfl hp
  rw [show (arrives false 17 0 (.pong {})).side = false from rfl, hbefore, hafter] at hadds
  cases hadds

end PingCall

end Tgvoip
