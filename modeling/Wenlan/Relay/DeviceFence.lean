import Wenlan.Relay.Devices
import Wenlan.Support.Transition

/-!
# The generation fence of a device

What any sequence of device operations does to the record and the route of one
device.  `Advances` is the order that every operation respects: revision and
generation do not go down, and a route whose space or backend token differs from
an earlier one has a larger generation.  `Retired` is the state a revocation
leaves behind, which no operation undoes.
-/

namespace Wenlan.Relay

open Support.Transition Option Table

/-- One committed device operation, with the values it draws and reads. -/
inductive DeviceOp where
  | enroll (candidate : ConnectorCandidate) (verified : Bool) (id managementToken : String)
      (now : Nat)
  | prepareReverse (candidate : ConnectorContract) (id managementToken : String) (now : Nat)
  | refresh (id managementToken : String) (candidate : ConnectorCandidate)
      (expectedGeneration : Option Nat) (before : Owned) (verified : Bool) (now later : Nat)
  | rotate (id managementToken nextToken : String) (now later : Nat)
  | revoke (id managementToken : String)
  | commitActivation (id managementToken connectionId : String) (before : OwnedState)
      (connected : Bool) (now later : Nat)

def DeviceOp.registers : DeviceOp → Option String
  | .enroll _ _ id _ _ | .prepareReverse _ id _ _ => some id
  | _ => none

section Fence

variable (hashSecret : String → String) (tunnelOrigin : String → Option String)

def deviceStep (store : Store) : DeviceOp → Store
  | .enroll candidate verified id token now =>
    (enrollDevice hashSecret store candidate verified id token now).1
  | .prepareReverse candidate id token now =>
    (prepareReverseDevice hashSecret store candidate id token now).1
  | .refresh id token candidate expected before verified now later =>
    (refreshDevice hashSecret store id token candidate expected before verified now later).1
  | .rotate id token next now later =>
    (rotateDeviceCredential hashSecret store id token next now later).1
  | .revoke id token => (revokeDevice hashSecret store id token).1
  | .commitActivation id token connectionId before connected now later =>
    (commitReverseActivation hashSecret tunnelOrigin store id token connectionId before
      connected now later).1

def DeviceStep (s : Store) (op : DeviceOp) (t : Store) : Prop :=
  t = deviceStep hashSecret tunnelOrigin s op

end Fence

/-! ## What one operation does to the records of a device -/

inductive DeviceChange (op : DeviceOp) (s t : Store) (id : String) : Prop
  | unchanged (hdevice : t.devices id = s.devices id) (hroute : t.routes id = s.routes id)
  /-- A first record, with or without a route. -/
  | registered (hop : op.registers = some id) (hdevice : s.devices id = none)
      (hroute : s.routes id = none)
  | refreshed (device : DeviceRecord) (route : ConnectorRoute)
      (candidate : ConnectorCandidate) (expiresAt : Nat)
      (hdevice : s.devices id = some device) (hroute : s.routes id = some route)
      (henabled : device.enabled = true)
      (hdevice' : t.devices id = some { device with revision := device.revision + 1 })
      (hroute' : t.routes id = some { route with
        tunnelOrigin := some candidate.tunnelOrigin
        backendToken := candidate.backendToken
        space := candidate.space
        generation := route.generation + (route.space != candidate.space ||
          route.backendToken != candidate.backendToken).toNat
        expiresAt })
  | rotated (device : DeviceRecord) (route : ConnectorRoute) (credentialHash : String)
      (expiresAt : Nat)
      (hdevice : s.devices id = some device) (hroute : s.routes id = some route)
      (henabled : device.enabled = true)
      (hdevice' : t.devices id =
        some { device with credentialHash, revision := device.revision + 1, expiresAt })
      (hroute' : t.routes id = some { route with generation := route.generation + 1 })
  | revoked (device : DeviceRecord) (hdevice : s.devices id = some device)
      (hdevice' : t.devices id = some { device with pendingReverse := none, enabled := false })
      (hroute' : t.routes id = (s.routes id).map fun route => { route with enabled := false })
  | activated (current : OwnedState) (connectionId : String) (later : Nat)
      (hdevice : s.devices id = some current.device) (hroute : s.routes id = current.route)
      (hcontract : ∀ route, current.route = some route →
        current.contract = ⟨route.backendToken, route.space⟩)
      (husable : current.device.enabled = true ∨ current.device.pendingReverse.isSome)
      (hdevice' : t.devices id = some { current.device with
        pendingReverse := none, enabled := true, revision := current.device.revision + 1 })
      (hroute' : t.routes id = some (activatedRoute id connectionId current later))

section Changes

variable {hashSecret : String → String} {tunnelOrigin : String → Option String}
  {store : Store} {id : String}

theorem owned_eq_some {digest : String} {now : Nat} {current : Owned}
    (h : owned store id digest now = some current) :
    store.devices id = some current.device ∧ store.routes id = some current.route ∧
      current.device.enabled := by
  unfold owned at h
  split at h
  · next device route hdevice hroute =>
      split at h
      · cases h
      · next hvalid =>
          cases h
          simp only [Bool.or_eq_true, not_or, Bool.not_eq_true, Bool.not_eq_false'] at hvalid
          exact ⟨hdevice, hroute, hvalid.1.1.1.1.1.1.1.1.1.1⟩
  · cases h

theorem ownedState_eq_some {digest : String} {now : Nat} {current : OwnedState}
    (h : ownedState tunnelOrigin store id digest now = some current) :
    store.devices id = some current.device ∧ store.routes id = current.route ∧
      (∀ route, current.route = some route → current.contract = ⟨route.backendToken, route.space⟩) ∧
      (current.device.enabled ∨ current.device.pendingReverse.isSome) := by
  unfold ownedState at h
  split at h
  · cases h
  · next device hdevice =>
      split at h
      · cases h
      · split at h
        · next pending hpend =>
            split at h
            · cases h
            · next hvalid =>
                cases h
                simp only [Bool.or_eq_true, not_or, Bool.not_eq_true,
                  isSome_eq_false_iff, isNone_iff_eq_none] at hvalid
                exact ⟨hdevice, hvalid.2, by simp, .inr (by simp [hpend])⟩
        · split at h
          · cases h
          · next route hroute =>
              split at h
              · cases h
              · next hvalid =>
                  cases h
                  simp only [Bool.or_eq_true, not_or, Bool.not_eq_true,
                    Bool.not_eq_false'] at hvalid
                  refine ⟨hdevice, hroute, ?_, .inl hvalid.1.1.1.1.1.1⟩
                  rintro _ ⟨rfl⟩
                  rfl

theorem enroll_change (candidate : ConnectorCandidate) (verified : Bool)
    (target token : String) (now : Nat) :
    DeviceChange (.enroll candidate verified target token now) store
      (enrollDevice hashSecret store candidate verified target token now).1 id := by
  unfold enrollDevice
  split
  · exact .unchanged rfl rfl
  · split
    · exact .unchanged rfl rfl
    · next habs =>
        by_cases hid : id = target
        · subst hid
          simp only [Bool.or_eq_true, not_or, Bool.not_eq_true, isSome_eq_false_iff,
            isNone_iff_eq_none] at habs
          exact .registered rfl habs.1 habs.2
        · exact .unchanged (put_other _ _ hid) (put_other _ _ hid)

theorem prepareReverse_change (candidate : ConnectorContract) (target token : String) (now : Nat) :
    DeviceChange (.prepareReverse candidate target token now) store
      (prepareReverseDevice hashSecret store candidate target token now).1 id := by
  unfold prepareReverseDevice
  split
  · exact .unchanged rfl rfl
  · split
    · exact .unchanged rfl rfl
    · next habs =>
        by_cases hid : id = target
        · subst hid
          simp only [Bool.or_eq_true, not_or, Bool.not_eq_true, isSome_eq_false_iff,
            isNone_iff_eq_none] at habs
          exact .registered rfl habs.1 habs.2
        · exact .unchanged (put_other _ _ hid) rfl

theorem refresh_change (target token : String) (candidate : ConnectorCandidate)
    (expected : Option Nat) (before : Owned) (verified : Bool) (now later : Nat) :
    DeviceChange (.refresh target token candidate expected before verified now later) store
      (refreshDevice hashSecret store target token candidate expected before verified now
        later).1 id := by
  unfold refreshDevice
  split
  · exact .unchanged rfl rfl
  · split
    · exact .unchanged rfl rfl
    · next current hcur =>
        split
        · exact .unchanged rfl rfl
        · simp only []
          split
          · exact .unchanged rfl rfl
          · by_cases hid : id = target
            · subst hid
              obtain ⟨hdevice, hroute, henabled⟩ := owned_eq_some hcur
              exact .refreshed current.device current.route candidate (later + routeTtlMs)
                hdevice hroute henabled (put_same ..) (put_same ..)
            · exact .unchanged (put_other _ _ hid) (put_other _ _ hid)

theorem rotate_change (target token next : String) (now later : Nat) :
    DeviceChange (.rotate target token next now later) store
      (rotateDeviceCredential hashSecret store target token next now later).1 id := by
  unfold rotateDeviceCredential
  split
  · exact .unchanged rfl rfl
  · split
    · exact .unchanged rfl rfl
    · next current hcur =>
        simp only []
        split
        · exact .unchanged rfl rfl
        · by_cases hid : id = target
          · subst hid
            obtain ⟨hdevice, hroute, henabled⟩ := owned_eq_some hcur
            exact .rotated current.device current.route _ _ hdevice hroute henabled
              (put_same ..) (put_same ..)
          · exact .unchanged (put_other _ _ hid) (put_other _ _ hid)

theorem disableRoute_same (routes : Table String ConnectorRoute) (id : String) :
    disableRoute routes id id = (routes id).map fun route => { route with enabled := false } := by
  unfold disableRoute
  cases hroute : routes id with
  | none => simp [hroute]
  | some route =>
    by_cases henabled : route.enabled
    · simp [henabled]
    · simp only [henabled, Bool.false_eq_true, if_false, hroute, map_some]
      rw [Bool.not_eq_true] at henabled
      rw [← henabled]

theorem disableRoute_other (routes : Table String ConnectorRoute) {id target : String}
    (hne : id ≠ target) : disableRoute routes target id = routes id := by
  unfold disableRoute
  cases routes target with
  | none => rfl
  | some route =>
    simp only []
    split
    · exact put_other _ _ hne
    · rfl

theorem revoke_change (target token : String) :
    DeviceChange (.revoke target token) store (revokeDevice hashSecret store target token).1
      id := by
  unfold revokeDevice
  split
  · exact .unchanged rfl rfl
  · split
    · exact .unchanged rfl rfl
    · exact .unchanged rfl rfl
    · next device hdevice =>
        split
        · exact .unchanged rfl rfl
        · by_cases hid : id = target
          · subst hid
            refine .revoked device hdevice ?_ (disableRoute_same ..)
            split
            · exact put_same ..
            · next hlive =>
                simp only [Bool.or_eq_true, not_or, Bool.not_eq_true,
                  isSome_eq_false_iff, isNone_iff_eq_none] at hlive
                rw [hdevice, ← hlive.1, ← hlive.2]
          · refine .unchanged ?_ (disableRoute_other _ hid)
            split
            · exact put_other _ _ hid
            · rfl

theorem commitActivation_change (target token connectionId : String) (before : OwnedState)
    (connected : Bool) (now later : Nat) :
    DeviceChange (.commitActivation target token connectionId before connected now later) store
      (commitReverseActivation hashSecret tunnelOrigin store target token connectionId before
        connected now later).1 id := by
  unfold commitReverseActivation
  split
  · exact .unchanged rfl rfl
  · split
    · exact .unchanged rfl rfl
    · next current hcur =>
        split
        · exact .unchanged rfl rfl
        · simp only []
          split
          · exact .unchanged rfl rfl
          · by_cases hid : id = target
            · subst hid
              obtain ⟨hdevice, hroute, hcontract, husable⟩ := ownedState_eq_some hcur
              exact .activated current connectionId later hdevice hroute hcontract husable
                (put_same ..) (put_same ..)
            · exact .unchanged (put_other _ _ hid) (put_other _ _ hid)

theorem deviceStep_change (s : Store) (op : DeviceOp) (id : String) :
    DeviceChange op s (deviceStep hashSecret tunnelOrigin s op) id := by
  cases op with
  | enroll => exact enroll_change ..
  | prepareReverse => exact prepareReverse_change ..
  | refresh => exact refresh_change ..
  | rotate => exact rotate_change ..
  | revoke => exact revoke_change ..
  | commitActivation => exact commitActivation_change ..

variable (hashSecret tunnelOrigin) in
theorem deviceStep_frame (s : Store) (op : DeviceOp) :
    ∃ devices routes, deviceStep hashSecret tunnelOrigin s op = { s with devices, routes } := by
  cases op with
  | enroll =>
    simp only [deviceStep, enrollDevice]
    split_ifs <;> exact ⟨_, _, rfl⟩
  | prepareReverse =>
    simp only [deviceStep, prepareReverseDevice]
    split_ifs <;> exact ⟨_, _, rfl⟩
  | refresh =>
    simp only [deviceStep, refreshDevice]
    split
    · exact ⟨_, _, rfl⟩
    · split
      · exact ⟨_, _, rfl⟩
      · split_ifs <;> exact ⟨_, _, rfl⟩
  | rotate =>
    simp only [deviceStep, rotateDeviceCredential]
    split
    · exact ⟨_, _, rfl⟩
    · split
      · exact ⟨_, _, rfl⟩
      · split_ifs <;> exact ⟨_, _, rfl⟩
  | revoke =>
    simp only [deviceStep, revokeDevice]
    split
    · exact ⟨_, _, rfl⟩
    · split
      · exact ⟨_, _, rfl⟩
      · exact ⟨_, _, rfl⟩
      · split <;> exact ⟨_, _, rfl⟩
  | commitActivation =>
    simp only [deviceStep, commitReverseActivation]
    split
    · exact ⟨_, _, rfl⟩
    · split
      · exact ⟨_, _, rfl⟩
      · split_ifs <;> exact ⟨_, _, rfl⟩

end Changes

def ConnectorRoute.boundary (route : ConnectorRoute) : String × String :=
  (route.space, route.backendToken)

/-- `t` is a later state of the device: nothing went down, and a new boundary
has a new generation. -/
structure Advances (id : String) (s t : Store) : Prop where
  device : ∀ device, s.devices id = some device →
    ∃ device', t.devices id = some device' ∧ device.revision ≤ device'.revision
  route : ∀ route, s.routes id = some route →
    ∃ route', t.routes id = some route' ∧ route.generation ≤ route'.generation ∧
      (route'.boundary ≠ route.boundary → route.generation < route'.generation)

namespace Advances

variable {id : String} {s m t : Store}

theorem refl (id : String) (s : Store) : Advances id s s :=
  ⟨fun device hdevice => ⟨device, hdevice, Nat.le_refl _⟩,
    fun route hroute => ⟨route, hroute, Nat.le_refl _, absurd rfl⟩⟩

theorem trans (h : Advances id s m) (h' : Advances id m t) : Advances id s t := by
  constructor
  · intro device hdevice
    obtain ⟨device₁, hdevice₁, hle₁⟩ := h.device device hdevice
    obtain ⟨device₂, hdevice₂, hle₂⟩ := h'.device device₁ hdevice₁
    exact ⟨device₂, hdevice₂, Nat.le_trans hle₁ hle₂⟩
  · intro route hroute
    obtain ⟨route₁, hroute₁, hle₁, hstrict₁⟩ := h.route route hroute
    obtain ⟨route₂, hroute₂, hle₂, hstrict₂⟩ := h'.route route₁ hroute₁
    refine ⟨route₂, hroute₂, Nat.le_trans hle₁ hle₂, fun hne => ?_⟩
    by_cases hfirst : route₁.boundary = route.boundary
    · rw [← hfirst] at hne
      exact Nat.lt_of_le_of_lt hle₁ (hstrict₂ hne)
    · exact Nat.lt_of_lt_of_le (hstrict₁ hfirst) hle₂

theorem of_eq (hdevice : t.devices id = s.devices id) (hroute : t.routes id = s.routes id) :
    Advances id s t :=
  ⟨fun device h => ⟨device, hdevice.trans h, Nat.le_refl _⟩,
    fun route h => ⟨route, hroute.trans h, Nat.le_refl _, absurd rfl⟩⟩

end Advances

variable {op : DeviceOp}

theorem DeviceChange.advances {s t : Store} {id : String}
    (h : DeviceChange op s t id) : Advances id s t := by
  cases h with
  | unchanged hdevice hroute => exact .of_eq hdevice hroute
  | registered _ hdevice hroute =>
    exact ⟨fun device h => by simp [hdevice] at h, fun route h => by simp [hroute] at h⟩
  | refreshed device route candidate expiresAt hdevice hroute _ hdevice' hroute' =>
    refine ⟨fun known h => ?_, fun known h => ?_⟩
    · obtain rfl := mem_unique hdevice h
      exact ⟨_, hdevice', Nat.le_succ _⟩
    · obtain rfl := mem_unique hroute h
      refine ⟨_, hroute', Nat.le_add_right _ _, fun hne => ?_⟩
      have hchang : (route.space != candidate.space ||
          route.backendToken != candidate.backendToken) := by
        by_contra hsame
        simp only [Bool.not_eq_true, Bool.or_eq_false_iff, bne_eq_false_iff_eq] at hsame
        exact hne (Prod.ext hsame.1.symm hsame.2.symm)
      simp only [hchang, Bool.toNat_true]
      exact Nat.lt_succ_self _
  | rotated device route credentialHash expiresAt hdevice hroute _ hdevice' hroute' =>
    refine ⟨fun known h => ?_, fun known h => ?_⟩
    · obtain rfl := mem_unique hdevice h
      exact ⟨_, hdevice', Nat.le_succ _⟩
    · obtain rfl := mem_unique hroute h
      exact ⟨_, hroute', Nat.le_succ _, fun _ => Nat.lt_succ_self _⟩
  | revoked device hdevice hdevice' hroute' =>
    refine ⟨fun known h => ?_, fun known h => ?_⟩
    · obtain rfl := mem_unique hdevice h
      exact ⟨_, hdevice', Nat.le_refl _⟩
    · rw [h, map_some] at hroute'
      exact ⟨_, hroute', Nat.le_refl _, absurd rfl⟩
  | activated current connectionId later hdevice hroute hcontract _ hdevice' hroute' =>
    refine ⟨fun known h => ?_, fun known h => ?_⟩
    · obtain rfl := mem_unique hdevice h
      exact ⟨_, hdevice', Nat.le_succ _⟩
    · have hcur := hroute.symm.trans h
      refine ⟨_, hroute', by simp [activatedRoute, hcur], fun hne => ?_⟩
      have hbound := hcontract known hcur
      exact absurd (by simp [ConnectorRoute.boundary, activatedRoute, hbound]) hne

/-! ## Revocation -/

/-- What a revocation leaves: no credential that works, and no route in use. -/
structure Retired (id : String) (s : Store) : Prop where
  device : ∃ device, s.devices id = some device ∧ device.enabled = false ∧
    device.pendingReverse = none
  route : ∀ route, s.routes id = some route → route.enabled = false

theorem DeviceChange.retired {s t : Store} {id : String}
    (h : DeviceChange op s t id) (hret : Retired id s) : Retired id t := by
  obtain ⟨⟨device, hdevice, hdis, hpend⟩, hroute⟩ := hret
  cases h with
  | unchanged hdevice' hroute' =>
    exact ⟨⟨device, hdevice'.trans hdevice, hdis, hpend⟩,
      fun route h => hroute route (hroute'.symm.trans h)⟩
  | registered _ habs => simp [hdevice] at habs
  | refreshed known _ _ _ hknown _ henabled =>
    obtain rfl := mem_unique hdevice hknown
    simp [hdis] at henabled
  | rotated known _ _ _ hknown _ henabled =>
    obtain rfl := mem_unique hdevice hknown
    simp [hdis] at henabled
  | revoked known hknown hdevice' hroute' =>
    refine ⟨⟨_, hdevice', rfl, rfl⟩, fun route h => ?_⟩
    rw [hroute'] at h
    obtain ⟨prior, _, rfl⟩ := map_eq_some_iff.mp h
    rfl
  | activated current _ _ hknown _ _ husable =>
    obtain heq := mem_unique hdevice hknown
    rw [← heq, hdis, hpend] at husable
    simp at husable

/-- No credential works on the device, no activation starts from it, its route
admits no grant, and no socket is the current one of it. -/
structure Unusable (id : String) (s : Store) : Prop where
  credential : ∀ digest now, owned s id digest now = none
  activation : ∀ tunnelOrigin digest now, ownedState tunnelOrigin s id digest now = none
  route : ∀ grant now, routeAllows (s.routes id) grant now = false
  connection : ∀ connectionId generation now,
    reverseConnectionCurrent s id connectionId generation now = false

theorem Retired.unusable {id : String} {s : Store} (h : Retired id s) : Unusable id s := by
  obtain ⟨⟨device, hdevice, hdis, hpend⟩, hroute⟩ := h
  constructor
  · intro digest now
    by_contra hsome
    obtain ⟨current, hcur⟩ := ne_none_iff_exists'.mp hsome
    obtain ⟨hknown, _, henabled⟩ := owned_eq_some hcur
    obtain rfl := mem_unique hdevice hknown
    simp [hdis] at henabled
  · intro origin digest now
    by_contra hsome
    obtain ⟨current, hcur⟩ := ne_none_iff_exists'.mp hsome
    obtain ⟨hknown, _, _, husable⟩ := ownedState_eq_some hcur
    rw [← mem_unique hdevice hknown, hdis, hpend] at husable
    simp at husable
  · intro grant now
    unfold routeAllows
    cases hstor : s.routes id with
    | none => rfl
    | some route => simp [hroute route hstor]
  · intro connectionId generation now
    unfold reverseConnectionCurrent
    split
    · rfl
    · split
      · next known route hknown hstor => simp [hroute route hstor]
      · rfl

def Absent (id : String) (s : Store) : Prop :=
  s.devices id = none ∧ s.routes id = none

theorem Absent.unusable {id : String} {s : Store} (h : Absent id s) : Unusable id s := by
  obtain ⟨hdevice, hroute⟩ := h
  constructor
  · intro digest now
    simp [owned, hdevice]
  · intro origin digest now
    simp [ownedState, hdevice]
  · intro grant now
    simp [routeAllows, hroute]
  · intro connectionId generation now
    simp [reverseConnectionCurrent, hdevice]

theorem DeviceChange.absent {s t : Store} {id : String}
    (h : DeviceChange op s t id) (hop : op.registers ≠ some id) (habs : Absent id s) :
    Absent id t := by
  obtain ⟨hdevice, hroute⟩ := habs
  cases h with
  | unchanged hdevice' hroute' => exact ⟨hdevice'.trans hdevice, hroute'.trans hroute⟩
  | registered hreg => exact absurd hreg hop
  | refreshed _ _ _ _ hknown | rotated _ _ _ _ hknown | revoked _ hknown
  | activated _ _ _ hknown => simp [hdevice] at hknown

theorem revokeDevice_retires {hashSecret : String → String} {s : Store} {id token : String}
    (h : (revokeDevice hashSecret s id token).2) :
    Retired id (revokeDevice hashSecret s id token).1 ∨
      (revokeDevice hashSecret s id token).1 = s ∧ Absent id s := by
  unfold revokeDevice at h ⊢
  split at h
  · cases h
  · next hvalid =>
      rw [if_neg hvalid]
      split at h
      · next hdevice hroute => exact .inr ⟨rfl, hdevice, hroute⟩
      · cases h
      · next device hdevice =>
          split at h
          · cases h
          · next howner =>
              left
              rw [if_neg howner]
              refine ⟨⟨{ device with pendingReverse := none, enabled := false }, ?_, rfl, rfl⟩,
                fun route hroute => ?_⟩
              · split
                · exact put_same ..
                · next hlive =>
                    simp only [Bool.or_eq_true, not_or, Bool.not_eq_true,
                      isSome_eq_false_iff, isNone_iff_eq_none] at hlive
                    rw [hdevice, ← hlive.1, ← hlive.2]
              · simp only [disableRoute_same] at hroute
                obtain ⟨prior, _, rfl⟩ := map_eq_some_iff.mp hroute
                rfl

section Runs

variable {hashSecret : String → String} {tunnelOrigin : String → Option String}
  {s t : Store} {ops : List DeviceOp}

section

variable (h : Run (DeviceStep hashSecret tunnelOrigin) s ops t)
include h

theorem advances_of_run (id : String) : Advances id s t := by
  refine h.le_of_step (Advances.refl id) (fun _ _ _ => Advances.trans) ?_
  rintro s op t rfl
  exact (deviceStep_change s op id).advances

theorem retired_of_run {id : String} (hret : Retired id s) : Retired id t := by
  refine h.invariant ?_ hret
  rintro s op t hinv rfl
  exact (deviceStep_change s op id).retired hinv

theorem absent_of_run {id : String}
    (hops : ∀ op ∈ ops, op.registers ≠ some id) (habs : Absent id s) : Absent id t := by
  refine h.invariant_on ?_ hops habs
  rintro s op t hop hinv rfl
  exact (deviceStep_change s op id).absent hop hinv

end

theorem not_routeAllows_of_lt {route : ConnectorRoute} {grant : QueryGrant}
    (hlt : grant.generation < route.generation) (now : Nat) :
    routeAllows (some route) grant now = false := by
  simp [routeAllows, (Nat.ne_of_lt hlt).symm]

/-- Over every run of device operations the revision and the generation of a
device never decrease.  An operation that changes the space or the backend token
strictly increases the generation, and no later route admits a grant of the
generations before it.  After an accepted revocation the device stays unusable,
unless it had no records at all and its id is registered anew. -/
theorem device_generation_fence (h : Run (DeviceStep hashSecret tunnelOrigin) s ops t)
    (id : String) : Advances id s t ∧
    (∀ op m route route', DeviceStep hashSecret tunnelOrigin t op m →
      t.routes id = some route → m.routes id = some route' →
      route'.boundary ≠ route.boundary →
      route.generation < route'.generation ∧
      ∀ later u grant now, Run (DeviceStep hashSecret tunnelOrigin) m later u →
        grant.generation ≤ route.generation → routeAllows (u.routes id) grant now = false) ∧
    ∀ token later u, (revokeDevice hashSecret t id token).2 = true →
      Run (DeviceStep hashSecret tunnelOrigin) (revokeDevice hashSecret t id token).1 later u →
      ((t.devices id).isSome ∨ ∀ op ∈ later, op.registers ≠ some id) →
      Unusable id u := by
  refine ⟨advances_of_run h id, ?_, ?_⟩
  · intro op m route route' hstep hroute hroute' hbound
    obtain ⟨stored, hstor, _, hstr⟩ :=
      (advances_of_run (.single hstep) id).route route hroute
    obtain rfl := Option.some.inj (hstor.symm.trans hroute')
    have hlt := hstr hbound
    refine ⟨hlt, fun later u grant now hlater hgrant => ?_⟩
    obtain ⟨last, hlast, hle, _⟩ := (advances_of_run hlater id).route stored hroute'
    rw [hlast]
    exact not_routeAllows_of_lt
      (Nat.lt_of_le_of_lt hgrant (Nat.lt_of_lt_of_le hlt hle)) now
  · intro token later u hrevoked hlater hreg
    rcases revokeDevice_retires hrevoked with hret | ⟨hsame, habs⟩
    · exact (retired_of_run hlater hret).unusable
    · rw [hsame] at hlater
      rcases hreg with hsome | hops
      · simp [habs.1] at hsome
      · exact (absent_of_run hlater hops habs).unusable

end Runs

def tokenDigest (secret : String) : String :=
  if secret = "tttttttttttttttttttttttttttttttt" then
    "8408c6d2a7b286b16d526315e5e8216cf36a7148cdbbd6e064762cd75ec5ae66"
  else secret

/-- A device enrolled for one space and refreshed for another: the generation
goes up, grants of the first generation stop, and a revocation is final. -/
theorem device_generation_fence_refreshed : let id := "dddddddddddddddddddddddddddddddd"
    let token := "tttttttttttttttttttttttttttttttt"
    let backend := "bbbbbbbbbbbbbbbbbbbbbbbbbbbbbbbb"
    let step := deviceStep tokenDigest some
    let t := step .empty (.enroll ⟨⟨backend, "work"⟩, "https://a.trycloudflare.com"⟩ true id token 0)
    ∃ before m, DeviceStep tokenDigest some t
        (.refresh id token ⟨⟨backend, "home"⟩, "https://a.trycloudflare.com"⟩ none before true 1 1) m ∧
      (m.routes id).map ConnectorRoute.generation = some 1 ∧
      (∀ now, routeAllows (m.routes id) ⟨id, id, "work", 0⟩ now = false) ∧
      Unusable id (revokeDevice tokenDigest t id token).1 := by
  intro id token backend step t
  obtain ⟨before, hbef⟩ : ∃ before, owned t id (tokenDigest token) 1 = some before :=
    ⟨_, rfl⟩
  have henr : Run (DeviceStep tokenDigest some) .empty [_] t := .single rfl
  have hfence := device_generation_fence henr id
  refine ⟨before, _, rfl, ?_, fun now => ?_, ?_⟩
  · cases hbef
    decide
  · cases hbef
    exact (hfence.2.1 _ _ _ _ rfl rfl rfl (by decide)).2 [] _ ⟨id, id, "work", 0⟩ now
      (.refl _) (Nat.le_refl 0)
  · exact hfence.2.2 token [] _ (by decide) (.refl _) (.inl rfl)

end Wenlan.Relay
