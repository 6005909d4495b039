import OpenAiLb.Provider
import OpenAiLb.Serde

/-!
# Observations of upstream responses

`track_response` turns the status and the body of an upstream response into a
`ProviderUpdate`. The updates it can build, and everything that `merge` can make
of them, have a common shape: `ProviderUpdate.Built`.
-/

namespace OpenAiLb

/-- `usage_limit_cooldown`: the deadline named by a usage-limit error, if it lies ahead. -/
def usageLimitCooldown (error : Option Value) (now : Int) : Option Int :=
  error.bind fun error =>
    if (error.get "type").bind Value.asStr = some "usage_limit_reached" then
      (((error.get "resets_at").bind Value.asI64).filter fun reset => now < reset).or
        ((((error.get "resets_in_seconds").bind Value.asI64).filter fun seconds => 0 < seconds).bind
          fun seconds => checkedAdd now seconds)
    else none

/-- A cooldown ends after the moment at which it is observed. -/
theorem usageLimitCooldown_gt {error : Option Value} {now deadline : Int}
    (h : usageLimitCooldown error now = some deadline) : now < deadline := by
  obtain ⟨error, -, herror⟩ := Option.bind_eq_some_iff.mp h
  split at herror
  · obtain h | ⟨-, h⟩ := Option.or_eq_some_iff.mp herror
    · simpa using (Option.filter_eq_some_iff.mp h).2
    · obtain ⟨seconds, hseconds, hadd⟩ := Option.bind_eq_some_iff.mp h
      have hpos : 0 < seconds := by simpa using (Option.filter_eq_some_iff.mp hseconds).2
      unfold checkedAdd at hadd
      split at hadd
      · cases hadd
        omega
      · cases hadd
  · cases herror

/-- The update of an upstream response that says nothing about the provider's status. -/
def statuslessUpdate (rateJson : String) (now : Int) : ProviderUpdate where
  status := none
  cooldownUntil := none
  rateLimitJson := rateJson
  lastError := none
  lastUsedAt := some now
  updatedAt := now
  circuit := none

/-- The update of a response with status 401 or 403. -/
def authErrorUpdate (status : ℕ) (rateJson : String) (now : Int) : ProviderUpdate where
  status := some .authError
  cooldownUntil := none
  rateLimitJson := rateJson
  lastError := some ("upstream HTTP " ++ toString status)
  lastUsedAt := some now
  updatedAt := now
  circuit := none

/-- The update of a usage-limit response. `circuitId` is the fresh `Uuid::new_v4()`. -/
def usageLimitUpdate (circuitId rateJson : String) (now cooldown : Int) : ProviderUpdate where
  status := some .cooldown
  cooldownUntil := some cooldown
  rateLimitJson := rateJson
  lastError := some "usage limit reached"
  lastUsedAt := some now
  updatedAt := now
  circuit := some
    { id := circuitId
      cause := "usage_limit_reached"
      rateLimitJson := rateJson
      openedAt := now
      cooldownUntil := cooldown }

/-- `track_response`, up to the call of `observe`. -/
def trackResponse (serde : SerdeJson) (now : Int) (circuitId : String) (status : ℕ)
    (body : List UInt8) : ProviderUpdate :=
  let error := (serde.fromSlice body).bind fun response => response.get "error"
  let rateJson := (error.map serde.toString).getD "\x7b\x7d"
  if status = 401 ∨ status = 403 then authErrorUpdate status rateJson now
  else if status = 429 then
    match usageLimitCooldown error now with
    | some cooldown => usageLimitUpdate circuitId rateJson now cooldown
    | none => statuslessUpdate rateJson now
  else statuslessUpdate rateJson now

/-- A usage-limit answer that names a deadline is observed with that deadline. -/
theorem trackResponse_usageLimit {serde : SerdeJson} {now deadline : Int} {body : List UInt8}
    (circuitId : String)
    (hlimit : usageLimitCooldown
      ((serde.fromSlice body).bind fun response => response.get "error") now = some deadline) :
    ∃ rateJson, trackResponse serde now circuitId 429 body =
      usageLimitUpdate circuitId rateJson now deadline := by
  simp only [trackResponse, hlimit]
  exact ⟨_, rfl⟩

/-- The three shapes of an observation made at `now`. -/
inductive Observed (now : Int) (circuitId : String) : ProviderUpdate → Prop
  | statusless (rateJson : String) : Observed now circuitId (statuslessUpdate rateJson now)
  | authError (status : ℕ) (rateJson : String) :
      Observed now circuitId (authErrorUpdate status rateJson now)
  | usageLimit (rateJson : String) {cooldown : Int} (hahead : now < cooldown) :
      Observed now circuitId (usageLimitUpdate circuitId rateJson now cooldown)

/-- `track_response` builds one of the three shapes. -/
theorem trackResponse_observed (serde : SerdeJson) (now : Int) (circuitId : String) (status : ℕ)
    (body : List UInt8) :
    Observed now circuitId (trackResponse serde now circuitId status body) := by
  unfold trackResponse
  dsimp only
  split
  · exact .authError _ _
  · split
    · split
      · next hcooldown => exact .usageLimit _ (usageLimitCooldown_gt hcooldown)
      · exact .statusless _
    · exact .statusless _

/-- The bytes of the usage-limit answer that names a moment of reset. -/
def usageLimitBody (resetsAt : ℕ) : List UInt8 :=
  ("\x7b\"error\":\x7b\"type\":\"usage_limit_reached\",\"resets_at\":" ++ toString resetsAt ++
    "\x7d\x7d").toList.map fun c => c.toNat.toUInt8

/-- A JSON reader that knows the usage-limit answers for the given moments and no other text.
The printed value has its fields in the order of their names, as `Value::to_string` has. -/
def usageLimitSerde (moments : List ℕ) : SerdeJson where
  fromSlice body := (moments.find? fun resetsAt => body = usageLimitBody resetsAt).map
    fun resetsAt => .object [("error", .object
      [("resets_at", .number (.integer resetsAt)), ("type", .string "usage_limit_reached")])]
  toString value := "\x7b\"resets_at\":" ++
    toString (((value.get "resets_at").bind Value.asI64).getD 0) ++
    ",\"type\":\"usage_limit_reached\"\x7d"

example : (trackResponse (usageLimitSerde [200]) 100 "c" 429 (usageLimitBody 200)).cooldownUntil =
    some 200 := by decide

/-- The updates that can stand in the pending map: observations, merged in any number. -/
inductive ProviderUpdate.Built : ProviderUpdate → Prop
  | observed {now : Int} {circuitId : String} {u : ProviderUpdate} :
      Observed now circuitId u → Built u
  | merged {u next : ProviderUpdate} : Built u → Built next → Built (u.merge next)

/-- What the status of a built update says about its other fields. -/
inductive StatusPart : Option ProviderStatus → Option Int → Option CircuitOpen → Prop
  | none : StatusPart none none none
  | authError : StatusPart (some .authError) none none
  | cooldown (circuit : CircuitOpen) :
      StatusPart (some .cooldown) (some circuit.cooldownUntil) (some circuit)

/-- What an observation says about the status. -/
theorem Observed.statusPart {now : Int} {circuitId : String} {u : ProviderUpdate}
    (h : Observed now circuitId u) : StatusPart u.status u.cooldownUntil u.circuit := by
  cases h with
  | statusless => exact .none
  | authError => exact .authError
  | usageLimit rateJson =>
    exact .cooldown
      ⟨circuitId, "usage_limit_reached", rateJson, now, _⟩

/-- A built update has a circuit exactly when its status is `cooldown`, with the same
deadline. -/
theorem ProviderUpdate.Built.statusPart {u : ProviderUpdate} (h : u.Built) :
    StatusPart u.status u.cooldownUntil u.circuit := by
  induction h with
  | observed hobs => exact hobs.statusPart
  | merged _ _ ihu ihnext =>
    rename_i u next _ _
    cases hstatus : next.status with
    | none =>
      obtain ⟨hs, hc, -, hcircuit⟩ := ProviderUpdate.merge_of_status_none (u := u) hstatus
      rwa [hs, hc, hcircuit]
    | some st =>
      obtain ⟨hs, hc, -, hcircuit⟩ := ProviderUpdate.merge_of_status_some (u := u) hstatus
      rw [hs, hc, hcircuit, ← hstatus]
      exact ihnext

end OpenAiLb
