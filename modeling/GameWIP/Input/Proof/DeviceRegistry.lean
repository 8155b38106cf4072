import GameWIP.Input.DeviceRegistry
import GameWIP.Lib.Trace

/-!
# What the device registry keeps

`Kept`: the list is strictly sorted by device reference, every entry is of its reference's type,
holds controls of its reference only and is connected while a feed is attached, and the keyboard
and the mouse are there. `UpsertKeeps`: an upsert drops no entry, leaves the entries of other
native identities as they are and answers none of their references.

The order, the distinct references and `connected` hold without condition. The rest depends on
what the operations are given (`RegistryOperation.fits`): an entry takes over the device type and
the controls of the record attached to it as they are, an upsert with all 256 indices of its type
taken replaces the last entry of the type, and a built-in device whose built-in feed was detached
goes with the backend that feeds it. These are the only steps that break it
(`registryKept_iff`).
-/

namespace Input

open Lib

variable {F : Type*}

/-! ## Records -/

section

variable (device target source : InputDeviceInfo F)

@[simp] theorem refreshDeviceSummary_device :
    (refreshDeviceSummary device).device = device.device := by
  unfold refreshDeviceSummary
  dsimp only
  split_ifs <;> rfl

@[simp] theorem refreshDeviceSummary_deviceType :
    (refreshDeviceSummary device).deviceType = device.deviceType := by
  unfold refreshDeviceSummary
  dsimp only
  split_ifs <;> rfl

@[simp] theorem refreshDeviceSummary_controls :
    (refreshDeviceSummary device).controls = device.controls := by
  unfold refreshDeviceSummary
  dsimp only
  split_ifs <;> rfl

/-- A refreshed device is connected exactly while a feed is attached. -/
theorem refreshDeviceSummary_connected :
    (refreshDeviceSummary device).connected = (refreshDeviceSummary device).hasFeed := by
  unfold refreshDeviceSummary InputDeviceInfo.hasFeed
  dsimp only
  split_ifs <;> rfl

@[simp] theorem refreshDeviceSummary_hasFeed :
    (refreshDeviceSummary device).hasFeed = device.hasFeed := by
  unfold refreshDeviceSummary InputDeviceInfo.hasFeed
  dsimp only
  split_ifs <;> rfl

@[simp] theorem attachFeed_device : (attachFeed target source).device = target.device := by
  unfold attachFeed
  cases source.backend <;> rfl

@[simp] theorem attachFeed_deviceType :
    (attachFeed target source).deviceType = target.deviceType := by
  unfold attachFeed
  cases source.backend <;> rfl

@[simp] theorem attachFeed_controls : (attachFeed target source).controls = target.controls := by
  unfold attachFeed
  cases source.backend <;> rfl

@[simp] theorem attachBackendInfo_device :
    (attachBackendInfo target source).device = target.device := by
  simp [attachBackendInfo]

@[simp] theorem attachBackendInfo_deviceType :
    (attachBackendInfo target source).deviceType = source.deviceType := by
  simp [attachBackendInfo]

@[simp] theorem attachBackendInfo_controls :
    (attachBackendInfo target source).controls = target.controls := by
  simp [attachBackendInfo]

theorem attachBackendInfo_connected :
    (attachBackendInfo target source).connected = (attachBackendInfo target source).hasFeed :=
  refreshDeviceSummary_connected _

@[simp] theorem setFeed_device (backend : InputDeviceBackend) (connected : Bool) :
    (setFeed device backend connected).device = device.device := by
  cases backend <;> rfl

@[simp] theorem setFeed_deviceType (backend : InputDeviceBackend) (connected : Bool) :
    (setFeed device backend connected).deviceType = device.deviceType := by
  cases backend <;> rfl

@[simp] theorem setFeed_controls (backend : InputDeviceBackend) (connected : Bool) :
    (setFeed device backend connected).controls = device.controls := by
  cases backend <;> rfl

@[simp] theorem clearFeed_device (backend : InputDeviceBackend) :
    (clearFeed backend device).device = device.device := by
  cases backend <;> simp [clearFeed]

@[simp] theorem clearFeed_deviceType (backend : InputDeviceBackend) :
    (clearFeed backend device).deviceType = device.deviceType := by
  cases backend <;> simp [clearFeed]

@[simp] theorem clearFeed_controls (backend : InputDeviceBackend) :
    (clearFeed backend device).controls = device.controls := by
  cases backend <;> simp [clearFeed]

end

/-! ## Controls -/

section

variable {controls target source : List (InputControlInfo F)} {control info : InputControlInfo F}

theorem mem_addUniqueControlInfo (h : info ∈ addUniqueControlInfo controls control) :
    info ∈ controls ∨ info = control := by
  unfold addUniqueControlInfo at h
  dsimp only at h
  split_ifs at h
  · simpa using h
  · exact (List.mem_or_eq_of_mem_set h)
  · exact .inl h

/-- What is merged stays, up to its description. -/
theorem exists_addUniqueControlInfo (controls : List (InputControlInfo F))
    (control : InputControlInfo F) (h : info ∈ controls ∨ info = control) :
    ∃ kept ∈ addUniqueControlInfo controls control, kept.control = info.control := by
  unfold addUniqueControlInfo
  dsimp only
  split_ifs with hend hname
  · exact ⟨info, by simpa using h, rfl⟩
  · have hlt : controls.findIdx (fun candidate => candidate.control = control.control) <
        controls.length := Nat.lt_of_le_of_ne List.findIdx_le_length hend
    have hat := List.findIdx_getElem (w := hlt)
    by_cases hsame : info.control = control.control
    · exact ⟨control, List.mem_set hlt control, hsame.symm⟩
    · rcases h with h | rfl
      · obtain ⟨i, hi, rfl⟩ := List.getElem_of_mem h
        refine ⟨controls[i], ?_, rfl⟩
        have hne : controls.findIdx (fun candidate => candidate.control = control.control) ≠ i := by
          rintro rfl
          exact hsame (of_decide_eq_true hat)
        exact List.mem_of_getElem? (by rw [List.getElem?_set_ne hne, List.getElem?_eq_getElem hi])
      · exact absurd rfl hsame
  · rcases h with h | rfl
    · exact ⟨info, h, rfl⟩
    · have hlt : controls.findIdx (fun candidate => candidate.control = info.control) <
          controls.length := Nat.lt_of_le_of_ne List.findIdx_le_length hend
      exact ⟨_, List.getElem_mem hlt, of_decide_eq_true (List.findIdx_getElem (w := hlt))⟩

theorem mem_mergeControlInfo (h : info ∈ mergeControlInfo target source) :
    info ∈ target ∨ info ∈ source := by
  unfold mergeControlInfo at h
  induction source generalizing target with
  | nil => exact .inl h
  | cons control source ih =>
    rcases ih h with h | h
    · rcases mem_addUniqueControlInfo h with h | rfl
      · exact .inl h
      · exact .inr List.mem_cons_self
    · exact .inr (List.mem_cons_of_mem _ h)

theorem exists_mergeControlInfo (target source : List (InputControlInfo F))
    (h : info ∈ target ∨ info ∈ source) :
    ∃ kept ∈ mergeControlInfo target source, kept.control = info.control := by
  unfold mergeControlInfo
  induction source generalizing target info with
  | nil => exact ⟨info, by simpa using h, rfl⟩
  | cons control source ih =>
    rw [List.mem_cons] at h
    by_cases htail : info ∈ source
    · exact ih _ (.inr htail)
    · obtain ⟨kept, hkept, hsame⟩ := exists_addUniqueControlInfo target control
        (show info ∈ target ∨ info = control by tauto)
      obtain ⟨kept', hkept', hsame'⟩ := ih _ (.inl hkept)
      exact ⟨kept', hkept', hsame'.trans hsame⟩

/-- What holds of the controls given holds of the merged ones, and the other way round. -/
theorem all_merge (p : InputControl → Bool) :
    ((mergeControlInfo target source).all fun info => p info.control) =
      ((target.all fun info => p info.control) && source.all fun info => p info.control) := by
  rw [Bool.eq_iff_iff, Bool.and_eq_true]
  simp only [List.all_eq_true]
  constructor
  · intro h
    constructor
    · intro info hinfo
      obtain ⟨kept, hkept, hsame⟩ := exists_mergeControlInfo target source (.inl hinfo)
      exact hsame ▸ h kept hkept
    · intro info hinfo
      obtain ⟨kept, hkept, hsame⟩ := exists_mergeControlInfo target source (.inr hinfo)
      exact hsame ▸ h kept hkept
  · rintro ⟨htarget, hsource⟩ info hinfo
    rcases mem_mergeControlInfo hinfo with h | h
    · exact htarget info h
    · exact hsource info h

/-- All the controls are of one device. -/
def allOnDevice (controls : List (InputControlInfo F)) (device : InputDeviceRef) : Bool :=
  controls.all fun info => isOnDevice info.control device

/-- All the controls are of one device once those of the first are remapped to it. -/
def allRemapped (controls : List (InputControlInfo F)) (source target : InputDeviceRef) : Bool :=
  controls.all fun info => isOnDevice info.control source || isOnDevice info.control target

@[simp] theorem allOnDevice_merge (device : InputDeviceRef) :
    allOnDevice (mergeControlInfo target source) device =
      (allOnDevice target device && allOnDevice source device) :=
  all_merge fun control => isOnDevice control device

theorem isOnDevice_remapControl (source target : InputDeviceRef) (info : InputControlInfo F) :
    isOnDevice (remapControl source target info).control target =
      (isOnDevice info.control source || isOnDevice info.control target) := by
  unfold remapControl
  cases h : isOnDevice info.control source with
  | false => simp
  | true => simp [isOnDevice]

@[simp] theorem allOnDevice_remap (controls : List (InputControlInfo F))
    (source target : InputDeviceRef) :
    allOnDevice (remapControls controls source target) target =
      allRemapped controls source target := by
  simp [allOnDevice, allRemapped, remapControls, List.all_map, Function.comp_def,
    isOnDevice_remapControl]

end

/-! ## The invariant -/

/-- The entry is of the type of its reference, with controls of its reference only, and connected
exactly while a feed is attached. -/
structure InputDeviceInfo.Kept (entry : InputDeviceInfo F) : Prop where
  deviceType : entry.deviceType = entry.device.deviceType
  controls : allOnDevice entry.controls entry.device = true
  connected : entry.connected = entry.hasFeed

/-- What the registry promises. -/
structure InputDeviceRegistry.Kept (registry : InputDeviceRegistry F) : Prop where
  sorted : SortedBy InputDeviceRef.lt InputDeviceInfo.device registry.devices
  distinct : (registry.devices.map (·.device)).Nodup
  entries : ∀ entry ∈ registry.devices, entry.Kept
  keyboard : ∃ entry ∈ registry.devices, entry.device = ⟨.keyboard, 0⟩
  mouse : ∃ entry ∈ registry.devices, entry.device = ⟨.mouse, 0⟩

/-- An upsert drops no entry, and it changes no entry of another native identity and answers none
of their references. -/
def UpsertKeeps (deviceInfo : InputDeviceInfo F) (before after : InputDeviceRegistry F)
    (answer : InputDeviceRef) : Prop :=
  (∀ entry ∈ before.devices, ∃ entry' ∈ after.devices, entry'.device = entry.device) ∧
    ∀ entry ∈ before.devices,
      isSameNativeIdentity entry (InputDeviceRegistry.requestedInfo deviceInfo) = false →
      entry ∈ after.devices ∧ entry.device ≠ answer

/-- The upserts of a step: the operation itself, or a merge into a device that is not there. -/
def RegistryOperation.UpsertKeeps (before : InputDeviceRegistry F)
    (operation : RegistryOperation F) (after : InputDeviceRegistry F) : Prop :=
  match operation with
  | .upsertDevice deviceInfo =>
    Input.UpsertKeeps deviceInfo before after (before.upsertDevice deviceInfo).2
  | .mergeDeviceBackend device backendInfo =>
    (∀ entry ∈ before.devices, entry.device ≠ device) →
      Input.UpsertKeeps backendInfo before after (before.mergeDeviceBackend device backendInfo).2
  | _ => True

/-! ## The condition -/

namespace InputDeviceRegistry

/-- The upsert finds a place for the device: the entry of its native identity, of its own type, or
a free index; and its controls are of that place, or of the device requested when the place is
another one. -/
def upsertFits (registry : InputDeviceRegistry F) (deviceInfo : InputDeviceInfo F) : Bool :=
  let devices := registry.devices
  match devices[findNativeEntry devices (requestedInfo deviceInfo)]? with
  | some native =>
    deviceInfo.deviceType = native.device.deviceType &&
      allRemapped deviceInfo.controls deviceInfo.device native.device
  | none =>
    if hasDeviceIndex devices deviceInfo.deviceType deviceInfo.device.deviceIndex then
      (deviceIndices.any fun index => !hasDeviceIndex devices deviceInfo.deviceType index) &&
        allRemapped deviceInfo.controls deviceInfo.device
          ⟨deviceInfo.deviceType, allocateDeviceIndex devices deviceInfo.deviceType⟩
    else
      allOnDevice deviceInfo.controls ⟨deviceInfo.deviceType, deviceInfo.device.deviceIndex⟩

/-- The built-in entry has a feed of another backend. -/
def keepsFeed (backend : InputDeviceBackend) (entry : InputDeviceInfo F) : Bool :=
  match backend with
  | .builtIn => true
  | .xInput => entry.hasBuiltInFeed || entry.hasHidFeed
  | .rawInputHID => entry.hasBuiltInFeed || entry.hasXInputFeed

end InputDeviceRegistry

open InputDeviceRegistry

/-- The condition on a step. -/
def RegistryOperation.fits (registry : InputDeviceRegistry F) : RegistryOperation F → Bool
  | .upsertDevice deviceInfo => registry.upsertFits deviceInfo
  | .mergeDeviceBackend device backendInfo =>
    if registry.devices.any fun entry => entry.device = device then
      backendInfo.deviceType = device.deviceType && allOnDevice backendInfo.controls device
    else registry.upsertFits backendInfo
  | .clearBackend backend =>
    registry.devices.all fun entry =>
      !(entry.device = ⟨.keyboard, 0⟩ || entry.device = ⟨.mouse, 0⟩) || keepsFeed backend entry
  | _ => true

/-! ## Rewriting an entry -/

theorem nodup_of_sorted {devices : List (InputDeviceInfo F)}
    (h : SortedBy InputDeviceRef.lt InputDeviceInfo.device devices) :
    (devices.map (·.device)).Nodup := by
  unfold List.Nodup
  rw [List.pairwise_map]
  exact h.imp fun hlt => SortedBy.ne_of_lt InputDeviceRef.lt_strictTotal hlt

namespace InputDeviceRegistry

variable {registry : InputDeviceRegistry F} {entry changed : InputDeviceInfo F}

/-- Rewriting an entry under its reference keeps the promise when the new entry does. -/
theorem kept_set (h : registry.Kept) {i : Nat} (hat : registry.devices[i]? = some entry)
    (hdevice : changed.device = entry.device) :
    (InputDeviceRegistry.mk (registry.devices.set i changed)).Kept ↔ changed.Kept := by
  obtain ⟨hsorted, hmem⟩ := h.sorted.set_key InputDeviceRef.lt_strictTotal hat hdevice
  have hpresent : ∀ device, (∃ e ∈ registry.devices, e.device = device) →
      ∃ e ∈ registry.devices.set i changed, e.device = device := by
    rintro device ⟨e, he, rfl⟩
    by_cases hsame : e.device = changed.device
    · exact ⟨changed, (hmem changed).2 (.inl rfl), hsame.symm⟩
    · exact ⟨e, (hmem e).2 (.inr ⟨he, hsame⟩), rfl⟩
  constructor
  · intro hk
    exact hk.entries changed ((hmem changed).2 (.inl rfl))
  · intro hc
    refine ⟨hsorted, nodup_of_sorted hsorted, fun e he => ?_, hpresent _ h.keyboard,
      hpresent _ h.mouse⟩
    rcases (hmem e).1 he with rfl | ⟨he, -⟩
    · exact hc
    · exact h.entries e he

/-- The entry a search by reference finds, and what it finds when there is none. -/
theorem findDeviceEntry_cases (h : registry.Kept) (device : InputDeviceRef) :
    (isMatchingDevice registry.devices (findDeviceEntry registry.devices device) device = true ∧
      ∃ entry, registry.devices[findDeviceEntry registry.devices device]? = some entry ∧
        entry.device = device) ∨
    (isMatchingDevice registry.devices (findDeviceEntry registry.devices device) device = false ∧
      ∀ entry ∈ registry.devices, entry.device ≠ device) := by
  have hiff := h.sorted.isMatching_search InputDeviceRef.lt_strictTotal device
  cases hm : isMatchingDevice registry.devices (findDeviceEntry registry.devices device) device with
  | true => exact .inl ⟨rfl, SortedBy.exists_matching hm⟩
  | false =>
    refine .inr ⟨rfl, fun entry hentry hdevice => ?_⟩
    have := hiff.2 ⟨entry, hentry, hdevice⟩
    unfold isMatchingDevice findDeviceEntry at hm
    rw [hm] at this
    cases this

/-- **A change of one entry** keeps the promise when it keeps that of the entry. -/
theorem kept_modify (h : registry.Kept) {device : InputDeviceRef}
    {change : InputDeviceInfo F → InputDeviceInfo F}
    (hdevice : ∀ entry, (change entry).device = entry.device) :
    (registry.modifyDevice device change).Kept ↔
      ∀ entry ∈ registry.devices, entry.device = device → (change entry).Kept := by
  unfold modifyDevice
  rcases findDeviceEntry_cases h device with ⟨hm, entry, hat, hentry⟩ | ⟨hm, hnone⟩
  · have hmodify : registry.devices.modify (findDeviceEntry registry.devices device) change =
        registry.devices.set (findDeviceEntry registry.devices device) (change entry) := by
      rw [List.modify_eq_set_getElem?, hat]
      rfl
    simp only [hm, if_true, hmodify]
    rw [kept_set h hat (hdevice entry)]
    constructor
    · intro hc e he hedevice
      have : e = entry := h.sorted.eq_of_key InputDeviceRef.lt_strictTotal he
        (List.mem_of_getElem? hat) (hedevice.trans hentry.symm)
      exact this ▸ hc
    · intro hc
      exact hc entry (List.mem_of_getElem? hat) hentry
  · simp only [hm, Bool.false_eq_true, if_false]
    exact iff_of_true h fun entry hentry hdevice => absurd hdevice (hnone entry hentry)

/-- A new entry keeps the promise when it keeps its own. -/
theorem kept_insert (h : registry.Kept)
    (hm : isMatchingDevice registry.devices
      (findDeviceEntry registry.devices entry.device) entry.device = false) :
    (InputDeviceRegistry.mk (registry.devices.insertIdx
      (findDeviceEntry registry.devices entry.device) entry)).Kept ↔ entry.Kept := by
  obtain ⟨hsorted, hmem⟩ := h.sorted.insert InputDeviceRef.lt_strictTotal hm
  have hpresent : ∀ device, (∃ e ∈ registry.devices, e.device = device) →
      ∃ e ∈ registry.devices.insertIdx (findDeviceEntry registry.devices entry.device) entry,
        e.device = device := by
    rintro device ⟨e, he, rfl⟩
    exact ⟨e, (hmem e).2 (.inr he), rfl⟩
  constructor
  · intro hk
    exact hk.entries entry ((hmem entry).2 (.inl rfl))
  · intro hc
    refine ⟨hsorted, nodup_of_sorted hsorted, fun e he => ?_, hpresent _ h.keyboard,
      hpresent _ h.mouse⟩
    rcases (hmem e).1 he with rfl | he
    · exact hc
    · exact h.entries e he

/-! ## Attaching a backend -/

theorem refresh_kept (hdeviceType : entry.deviceType = entry.device.deviceType)
    (hcontrols : allOnDevice entry.controls entry.device = true) :
    (refreshDeviceSummary entry).Kept where
  deviceType := by simpa using hdeviceType
  controls := by simpa using hcontrols
  connected := refreshDeviceSummary_connected entry

@[simp] theorem attachRecord_device (target source : InputDeviceInfo F) :
    (attachRecord target source).device = target.device :=
  attachBackendInfo_device target source

@[simp] theorem attachRecord_deviceType (target source : InputDeviceInfo F) :
    (attachRecord target source).deviceType = source.deviceType :=
  attachBackendInfo_deviceType target source

@[simp] theorem attachRecord_controls (target source : InputDeviceInfo F) :
    (attachRecord target source).controls = mergeControlInfo target.controls source.controls := by
  simp [attachRecord]

/-- A record attached to a kept entry leaves one when it is of its type and its controls are the
entry's own. -/
theorem attachRecord_kept {target : InputDeviceInfo F} (h : target.Kept)
    (source : InputDeviceInfo F) :
    (attachRecord target source).Kept ↔
      source.deviceType = target.device.deviceType ∧
        allOnDevice source.controls target.device = true := by
  constructor
  · intro hk
    have hcontrols := hk.controls
    rw [attachRecord_controls, attachRecord_device, allOnDevice_merge, Bool.and_eq_true]
      at hcontrols
    exact ⟨by simpa using hk.deviceType, hcontrols.2⟩
  · rintro ⟨hdeviceType, hcontrols⟩
    exact {
      deviceType := by simpa using hdeviceType
      controls := by simp [h.controls, hcontrols]
      connected := attachBackendInfo_connected target source }

@[simp] theorem requestedInfo_device (deviceInfo : InputDeviceInfo F) :
    (requestedInfo deviceInfo).device = ⟨deviceInfo.deviceType, deviceInfo.device.deviceIndex⟩ := by
  unfold requestedInfo
  dsimp only
  rw [attachRecord_device]
  by_cases htype : deviceInfo.device.deviceType = deviceInfo.deviceType
  · rw [if_neg (not_not_intro htype), ← htype]
  · rw [if_pos htype]

@[simp] theorem requestedInfo_deviceType (deviceInfo : InputDeviceInfo F) :
    (requestedInfo deviceInfo).deviceType = deviceInfo.deviceType := by
  simp [requestedInfo]

theorem requestedInfo_all (deviceInfo : InputDeviceInfo F) (p : InputControl → Bool) :
    ((requestedInfo deviceInfo).controls.all fun info => p info.control) =
      deviceInfo.controls.all fun info => p info.control := by
  unfold requestedInfo
  dsimp only
  rw [attachRecord_controls, all_merge]
  split_ifs <;> simp

/-- The entry a new device gets under a reference. -/
theorem requested_kept (deviceInfo : InputDeviceInfo F) (device : InputDeviceRef)
    (controls : List (InputControlInfo F)) :
    InputDeviceInfo.Kept { requestedInfo deviceInfo with device, controls } ↔
      deviceInfo.deviceType = device.deviceType ∧ allOnDevice controls device = true := by
  constructor
  · intro hk
    exact ⟨by simpa using hk.deviceType, hk.controls⟩
  · rintro ⟨hdeviceType, hcontrols⟩
    exact {
      deviceType := by simpa using hdeviceType
      controls := hcontrols
      connected := attachBackendInfo_connected _ _ }

/-! ## Upserts -/

theorem hasDeviceIndex_iff {devices : List (InputDeviceInfo F)} {deviceType : InputDeviceType}
    {deviceIndex : DeviceIndex} :
    hasDeviceIndex devices deviceType deviceIndex = true ↔
      ∃ entry ∈ devices, entry.device = ⟨deviceType, deviceIndex⟩ := by
  unfold hasDeviceIndex
  rw [List.any_eq_true]
  constructor
  · rintro ⟨entry, hentry, hdevice⟩
    simp only [Bool.and_eq_true, decide_eq_true_eq] at hdevice
    refine ⟨entry, hentry, ?_⟩
    rw [← hdevice.1, ← hdevice.2]
  · rintro ⟨entry, hentry, hdevice⟩
    refine ⟨entry, hentry, ?_⟩
    rw [hdevice]
    simp

theorem mem_deviceIndices (index : DeviceIndex) : index ∈ deviceIndices := by
  unfold deviceIndices
  exact List.mem_map.2 ⟨index.toNat, List.mem_range.2 index.toNat_lt, by simp⟩

/-- The index allocated is free, if any of the type is. -/
theorem allocateDeviceIndex_free (devices : List (InputDeviceInfo F))
    (deviceType : InputDeviceType) :
    hasDeviceIndex devices deviceType (allocateDeviceIndex devices deviceType) =
      !deviceIndices.any fun index => !hasDeviceIndex devices deviceType index := by
  unfold allocateDeviceIndex
  cases hfind : deviceIndices.find? fun index => !hasDeviceIndex devices deviceType index with
  | none =>
    have htaken := List.find?_eq_none.1 hfind
    have hany : (deviceIndices.any fun index => !hasDeviceIndex devices deviceType index) =
        false := by
      rw [List.any_eq_false]
      exact htaken
    rw [hany]
    simpa using htaken 255 (mem_deviceIndices 255)
  | some index =>
    have hfree := List.find?_some hfind
    have hany : (deviceIndices.any fun index => !hasDeviceIndex devices deviceType index) =
        true := List.any_eq_true.2 ⟨index, List.mem_of_find?_eq_some hfind, hfree⟩
    rw [hany]
    simpa using hfree

/-- Sorting a sorted list again. -/
theorem insertionSort_eq {devices : List (InputDeviceInfo F)}
    (h : SortedBy InputDeviceRef.lt InputDeviceInfo.device devices) :
    (devices.insertionSort fun left right => right.device.lt left.device = false) = devices := by
  apply List.Pairwise.insertionSort_eq
  refine h.imp fun {a b} hlt => ?_
  cases hgt : b.device.lt a.device with
  | false => rfl
  | true =>
    have := InputDeviceRef.lt_strictTotal.trans hlt hgt
    rw [InputDeviceRef.lt_strictTotal.irrefl] at this
    cases this

theorem findNativeEntry_some {devices : List (InputDeviceInfo F)} {device : InputDeviceInfo F}
    (hat : devices[findNativeEntry devices device]? = some entry) :
    isSameNativeIdentity entry device = true := by
  obtain ⟨hlt, rfl⟩ := List.getElem?_eq_some_iff.1 hat
  exact List.findIdx_getElem (w := hlt)

theorem findNativeEntry_none {devices : List (InputDeviceInfo F)} {device : InputDeviceInfo F}
    (hat : devices[findNativeEntry devices device]? = none) :
    ∀ entry ∈ devices, isSameNativeIdentity entry device = false :=
  List.findIdx_eq_length.1 (Nat.le_antisymm List.findIdx_le_length (List.getElem?_eq_none_iff.1 hat))

/-- An upsert of a known native identity. -/
theorem upsert_native (h : registry.Kept) {deviceInfo native : InputDeviceInfo F}
    (hat : registry.devices[findNativeEntry registry.devices (requestedInfo deviceInfo)]? =
      some native) :
    ((registry.upsertDevice deviceInfo).1.Kept ↔
      deviceInfo.deviceType = native.device.deviceType ∧
        allRemapped deviceInfo.controls deviceInfo.device native.device = true) ∧
      UpsertKeeps deviceInfo registry (registry.upsertDevice deviceInfo).1
        (registry.upsertDevice deviceInfo).2 := by
  have hnative : native ∈ registry.devices := List.mem_of_getElem? hat
  unfold upsertDevice
  simp only [hat, attachRecord_device]
  obtain ⟨hsorted, hmem⟩ := h.sorted.set_key InputDeviceRef.lt_strictTotal hat
    (attachRecord_device native { requestedInfo deviceInfo with
      controls := remapControls (requestedInfo deviceInfo).controls deviceInfo.device
        native.device })
  simp only [attachRecord_device] at hmem
  rw [insertionSort_eq hsorted]
  constructor
  · rw [kept_set h hat (attachRecord_device _ _), attachRecord_kept (h.entries native hnative),
      allOnDevice_remap, requestedInfo_deviceType]
    unfold allRemapped
    rw [requestedInfo_all deviceInfo fun control =>
      isOnDevice control deviceInfo.device || isOnDevice control native.device]
  · constructor
    · intro e he
      by_cases hsame : e.device = native.device
      · exact ⟨_, (hmem _).2 (.inl rfl), (attachRecord_device _ _).trans hsame.symm⟩
      · exact ⟨e, (hmem e).2 (.inr ⟨he, hsame⟩), rfl⟩
    · intro e he hother
      have hne : e.device ≠ native.device := by
        intro heq
        have := h.sorted.eq_of_key InputDeviceRef.lt_strictTotal he hnative heq
        rw [this, findNativeEntry_some hat] at hother
        cases hother
      exact ⟨(hmem e).2 (.inr ⟨he, hne⟩), hne⟩

/-- A new device under a reference that no entry has. -/
theorem insert_new (h : registry.Kept) (deviceInfo entry : InputDeviceInfo F)
    (hfresh : ∀ e ∈ registry.devices, e.device ≠ entry.device) :
    isMatchingDevice registry.devices
        (findDeviceEntry registry.devices entry.device) entry.device = false ∧
      ((InputDeviceRegistry.mk (registry.devices.insertIdx
        (findDeviceEntry registry.devices entry.device) entry)).Kept ↔ entry.Kept) ∧
      UpsertKeeps deviceInfo registry (.mk (registry.devices.insertIdx
        (findDeviceEntry registry.devices entry.device) entry)) entry.device := by
  rcases findDeviceEntry_cases h entry.device with ⟨-, e, hat, he⟩ | ⟨hm, -⟩
  · exact absurd he (hfresh e (List.mem_of_getElem? hat))
  · obtain ⟨-, hmem⟩ := h.sorted.insert InputDeviceRef.lt_strictTotal hm
    refine ⟨hm, kept_insert h hm, fun e he => ⟨e, (hmem e).2 (.inr he), rfl⟩, ?_⟩
    intro e he _
    exact ⟨(hmem e).2 (.inr he), hfresh e he⟩

/-- An upsert of an unknown native identity whose reference is free. -/
theorem upsert_free (h : registry.Kept) {deviceInfo : InputDeviceInfo F}
    (hat : registry.devices[findNativeEntry registry.devices (requestedInfo deviceInfo)]? = none)
    (hfree : hasDeviceIndex registry.devices deviceInfo.deviceType
      deviceInfo.device.deviceIndex = false) :
    ((registry.upsertDevice deviceInfo).1.Kept ↔
      allOnDevice deviceInfo.controls
        ⟨deviceInfo.deviceType, deviceInfo.device.deviceIndex⟩ = true) ∧
      UpsertKeeps deviceInfo registry (registry.upsertDevice deviceInfo).1
        (registry.upsertDevice deviceInfo).2 := by
  have hfresh : ∀ e ∈ registry.devices, e.device ≠ (requestedInfo deviceInfo).device := by
    intro e he heq
    rw [requestedInfo_device] at heq
    rw [hasDeviceIndex_iff.2 ⟨e, he, heq⟩] at hfree
    cases hfree
  obtain ⟨hm, hkept, hkeeps⟩ := insert_new h deviceInfo _ hfresh
  have hentry : (requestedInfo deviceInfo).Kept ↔
      allOnDevice deviceInfo.controls (requestedInfo deviceInfo).device = true := by
    have hkept := requested_kept deviceInfo (requestedInfo deviceInfo).device
      (requestedInfo deviceInfo).controls
    unfold allOnDevice at hkept ⊢
    rw [requestedInfo_all deviceInfo fun control => isOnDevice control _] at hkept
    exact hkept.trans (and_iff_right (by simp))
  unfold upsertDevice
  simp only [hat, requestedInfo_device, hfree, Bool.false_eq_true, if_false]
  rw [requestedInfo_device] at hm hkept hkeeps hentry
  simp only [hm, Bool.false_eq_true, if_false]
  exact ⟨hkept.trans hentry, hkeeps⟩

/-- An upsert of an unknown native identity whose reference is taken. -/
theorem upsert_taken (h : registry.Kept) {deviceInfo : InputDeviceInfo F}
    (hat : registry.devices[findNativeEntry registry.devices (requestedInfo deviceInfo)]? = none)
    (htaken : hasDeviceIndex registry.devices deviceInfo.deviceType
      deviceInfo.device.deviceIndex = true) :
    ((registry.upsertDevice deviceInfo).1.Kept ∧
      UpsertKeeps deviceInfo registry (registry.upsertDevice deviceInfo).1
        (registry.upsertDevice deviceInfo).2) ↔
      (deviceIndices.any fun index =>
        !hasDeviceIndex registry.devices deviceInfo.deviceType index) = true ∧
      allRemapped deviceInfo.controls deviceInfo.device
        ⟨deviceInfo.deviceType,
          allocateDeviceIndex registry.devices deviceInfo.deviceType⟩ = true := by
  have hfree := allocateDeviceIndex_free registry.devices deviceInfo.deviceType
  have hentry := requested_kept deviceInfo
    ⟨deviceInfo.deviceType, allocateDeviceIndex registry.devices deviceInfo.deviceType⟩
    (remapControls (requestedInfo deviceInfo).controls deviceInfo.device
      ⟨deviceInfo.deviceType, allocateDeviceIndex registry.devices deviceInfo.deviceType⟩)
  rw [allOnDevice_remap] at hentry
  unfold allRemapped at hentry ⊢
  rw [requestedInfo_all deviceInfo fun control =>
    isOnDevice control deviceInfo.device || isOnDevice control _] at hentry
  unfold upsertDevice
  simp only [hat, requestedInfo_device, htaken, if_true]
  cases hany : deviceIndices.any fun index =>
      !hasDeviceIndex registry.devices deviceInfo.deviceType index with
  | true =>
    rw [hany] at hfree
    have hfresh : ∀ e ∈ registry.devices, e.device ≠
        ⟨deviceInfo.deviceType, allocateDeviceIndex registry.devices deviceInfo.deviceType⟩ := by
      intro e he heq
      rw [hasDeviceIndex_iff.2 ⟨e, he, heq⟩] at hfree
      cases hfree
    obtain ⟨hm, hkept, hkeeps⟩ := insert_new h deviceInfo
      { requestedInfo deviceInfo with
        device := ⟨deviceInfo.deviceType,
          allocateDeviceIndex registry.devices deviceInfo.deviceType⟩
        controls := remapControls (requestedInfo deviceInfo).controls deviceInfo.device
          ⟨deviceInfo.deviceType, allocateDeviceIndex registry.devices deviceInfo.deviceType⟩ }
      hfresh
    dsimp only at hm hkept hkeeps
    simp only [hm, Bool.false_eq_true, if_false, true_and]
    rw [hkept, hentry]
    exact ⟨fun hk => hk.1.2, fun hk => ⟨⟨rfl, hk⟩, hkeeps⟩⟩
  | false =>
    rw [hany] at hfree
    obtain ⟨e, he, hdevice⟩ := hasDeviceIndex_iff.1 hfree
    refine iff_of_false ?_ (by simp)
    rintro ⟨-, -, hkeeps⟩
    have := (hkeeps e he (findNativeEntry_none hat e he)).2
    split_ifs at this <;> exact this hdevice

/-- **What an upsert keeps**, exactly when the device fits. -/
theorem upsertDevice_iff (h : registry.Kept) (deviceInfo : InputDeviceInfo F) :
    ((registry.upsertDevice deviceInfo).1.Kept ∧
      UpsertKeeps deviceInfo registry (registry.upsertDevice deviceInfo).1
        (registry.upsertDevice deviceInfo).2) ↔ registry.upsertFits deviceInfo = true := by
  unfold upsertFits
  dsimp only
  cases hat : registry.devices[findNativeEntry registry.devices (requestedInfo deviceInfo)]? with
  | some native =>
    obtain ⟨hkept, hkeeps⟩ := upsert_native h hat
    rw [hkept, Bool.and_eq_true, decide_eq_true_eq]
    exact and_iff_left hkeeps
  | none =>
    cases htaken : hasDeviceIndex registry.devices deviceInfo.deviceType
        deviceInfo.device.deviceIndex with
    | true =>
      dsimp only
      rw [upsert_taken h hat htaken, if_pos rfl, Bool.and_eq_true]
    | false =>
      obtain ⟨hkept, hkeeps⟩ := upsert_free h hat htaken
      simp only [Bool.false_eq_true, if_false]
      rw [hkept]
      exact and_iff_left hkeeps

/-! ## Clearing a backend -/

/-- The feed left when a backend is cleared is one of another backend. -/
theorem clearFeed_hasFeed {backend : InputDeviceBackend} (hbackend : backend ≠ .builtIn) :
    (clearFeed backend entry).hasFeed = keepsFeed backend entry := by
  cases backend with
  | builtIn => exact absurd rfl hbackend
  | xInput =>
    simp only [clearFeed, refreshDeviceSummary_hasFeed]
    simp [InputDeviceInfo.hasFeed, keepsFeed]
  | rawInputHID =>
    simp only [clearFeed, refreshDeviceSummary_hasFeed]
    simp [InputDeviceInfo.hasFeed, keepsFeed]

/-- A device survives the clearing of a backend when its entry has another feed. -/
theorem survives_iff (h : registry.Kept) {backend : InputDeviceBackend}
    (hbackend : backend ≠ .builtIn) {device : InputDeviceRef}
    (hpresent : ∃ e ∈ registry.devices, e.device = device) :
    (∃ e ∈ (registry.devices.map (clearFeed backend)).filter (·.hasFeed), e.device = device) ↔
      ∀ e ∈ registry.devices, e.device = device → keepsFeed backend e = true := by
  constructor
  · rintro ⟨e, he, hdevice⟩ e' he' hdevice'
    obtain ⟨hmap, hfeed⟩ := List.mem_filter.1 he
    obtain ⟨origin, horigin, rfl⟩ := List.mem_map.1 hmap
    rw [clearFeed_device] at hdevice
    rw [clearFeed_hasFeed hbackend] at hfeed
    have := h.sorted.eq_of_key InputDeviceRef.lt_strictTotal he' horigin
      (hdevice'.trans hdevice.symm)
    exact this ▸ hfeed
  · intro hall
    obtain ⟨e, he, hdevice⟩ := hpresent
    refine ⟨clearFeed backend e, List.mem_filter.2 ⟨List.mem_map_of_mem he, ?_⟩, ?_⟩
    · rw [clearFeed_hasFeed hbackend]
      exact hall e he hdevice
    · rw [clearFeed_device]
      exact hdevice

theorem clearBackend_kept (h : registry.Kept) (backend : InputDeviceBackend) :
    (registry.clearBackend backend).Kept ↔
      (registry.devices.all fun e =>
        !(e.device = ⟨.keyboard, 0⟩ || e.device = ⟨.mouse, 0⟩) || keepsFeed backend e) = true := by
  unfold clearBackend
  by_cases hbackend : backend = .builtIn
  · subst hbackend
    exact iff_of_true h (by simp [keepsFeed])
  rw [if_neg hbackend, List.all_eq_true]
  have hkeyboard := survives_iff h hbackend h.keyboard
  have hmouse := survives_iff h hbackend h.mouse
  constructor
  · intro hk e he
    by_cases hk' : e.device = ⟨.keyboard, 0⟩
    · simp [hkeyboard.1 hk.keyboard e he hk']
    · by_cases hm' : e.device = ⟨.mouse, 0⟩
      · simp [hmouse.1 hk.mouse e he hm']
      · simp [hk', hm']
  · intro hall
    have hsorted : SortedBy InputDeviceRef.lt InputDeviceInfo.device
        ((registry.devices.map (clearFeed backend)).filter (·.hasFeed)) := by
      apply List.Pairwise.filter
      rw [List.pairwise_map]
      exact h.sorted.imp fun {a b} hlt => by simpa using hlt
    refine ⟨hsorted, nodup_of_sorted hsorted, fun e he => ?_, hkeyboard.2 fun e he hdevice => ?_,
      hmouse.2 fun e he hdevice => ?_⟩
    · obtain ⟨origin, horigin, rfl⟩ := List.mem_map.1 (List.mem_filter.1 he).1
      have hkept := h.entries origin horigin
      exact {
        deviceType := by simpa using hkept.deviceType
        controls := by simpa using hkept.controls
        connected := by cases backend <;> exact refreshDeviceSummary_connected _ }
    · simpa [hdevice] using hall e he
    · simpa [hdevice] using hall e he

/-! ## Every operation -/

theorem setDeviceConnected_kept (h : registry.Kept) (device : InputDeviceRef) (connected : Bool) :
    (registry.setDeviceConnected device connected).Kept := by
  refine (kept_modify h fun e => ?_).2 fun e he _ => ?_
  · cases connected <;> simp
  · have hkept := h.entries e he
    apply refresh_kept <;> cases connected <;> simp [hkept.deviceType, hkept.controls]

theorem setDeviceBackendConnected_kept (h : registry.Kept) (device : InputDeviceRef)
    (backend : InputDeviceBackend) (connected : Bool) :
    (registry.setDeviceBackendConnected device backend connected).Kept := by
  refine (kept_modify h fun e => by simp).2 fun e he _ => ?_
  have hkept := h.entries e he
  apply refresh_kept <;> simp [hkept.deviceType, hkept.controls]

theorem setDeviceCanonical_kept (h : registry.Kept) (device : InputDeviceRef) (canonical : Bool) :
    (registry.setDeviceCanonical device canonical).Kept := by
  refine (kept_modify h fun _ => by rfl).2 fun e he _ => ?_
  have hkept := h.entries e he
  exact ⟨hkept.deviceType, hkept.controls, hkept.connected⟩

theorem mergeDeviceControls_kept (h : registry.Kept) {device : InputDeviceRef}
    {controls : List (InputControlInfo F)} (hcontrols : allOnDevice controls device = true) :
    (registry.mergeDeviceControls device controls).Kept := by
  refine (kept_modify h fun _ => by rfl).2 fun e he hdevice => ?_
  subst hdevice
  have hkept := h.entries e he
  exact ⟨hkept.deviceType, by simp [hkept.controls, hcontrols], hkept.connected⟩

theorem mergeDeviceBackend_iff (h : registry.Kept) (device : InputDeviceRef)
    (backendInfo : InputDeviceInfo F) :
    ((registry.mergeDeviceBackend device backendInfo).1.Kept ∧
      RegistryOperation.UpsertKeeps registry (.mergeDeviceBackend device backendInfo)
        (registry.mergeDeviceBackend device backendInfo).1) ↔
      RegistryOperation.fits registry (.mergeDeviceBackend device backendInfo) = true := by
  unfold RegistryOperation.UpsertKeeps RegistryOperation.fits mergeDeviceBackend
  dsimp only
  rcases findDeviceEntry_cases h device with ⟨hm, entry, hat, hentry⟩ | ⟨hm, hnone⟩
  · have hmem : entry ∈ registry.devices := List.mem_of_getElem? hat
    have hany : (registry.devices.any fun entry => decide (entry.device = device)) = true :=
      List.any_eq_true.2 ⟨entry, hmem, by simpa using hentry⟩
    simp only [hm, hany, Bool.not_true, Bool.false_eq_true, if_false, if_true, Bool.and_eq_true,
      decide_eq_true_eq]
    rw [kept_modify h fun e => attachRecord_device e backendInfo]
    constructor
    · rintro ⟨hk, -⟩
      have := (attachRecord_kept (h.entries entry hmem) backendInfo).1 (hk entry hmem hentry)
      rwa [hentry] at this
    · intro hfits
      refine ⟨fun e he hdevice => ?_, fun hno => absurd hentry (hno entry hmem)⟩
      subst hdevice
      exact (attachRecord_kept (h.entries e he) backendInfo).2 hfits
  · have hany : (registry.devices.any fun entry => decide (entry.device = device)) = false := by
      rw [List.any_eq_false]
      intro entry hentry
      simpa using hnone entry hentry
    simp only [hm, hany, Bool.not_false, Bool.false_eq_true, if_false, if_true]
    rw [← upsertDevice_iff h]
    exact and_congr_right fun _ => ⟨fun hk => hk hnone, fun hk _ => hk⟩

/-- One operation keeps the promise exactly when it fits. -/
theorem step_iff (h : registry.Kept) {operation : RegistryOperation F}
    {after : InputDeviceRegistry F} (hs : registryStep registry operation = some after) :
    (after.Kept ∧ operation.UpsertKeeps registry after) ↔ operation.fits registry = true := by
  cases operation with
  | upsertDevice deviceInfo =>
    cases hs
    exact upsertDevice_iff h deviceInfo
  | mergeDeviceBackend device backendInfo =>
    cases hs
    exact mergeDeviceBackend_iff h device backendInfo
  | setDeviceConnected device connected =>
    cases hs
    exact iff_of_true ⟨setDeviceConnected_kept h device connected, trivial⟩ rfl
  | setDeviceBackendConnected device backend connected =>
    cases hs
    exact iff_of_true ⟨setDeviceBackendConnected_kept h device backend connected, trivial⟩ rfl
  | setDeviceCanonical device canonical =>
    cases hs
    exact iff_of_true ⟨setDeviceCanonical_kept h device canonical, trivial⟩ rfl
  | mergeDeviceControls device controls =>
    unfold registryStep at hs
    dsimp only at hs
    split at hs
    · rename_i hcontrols
      cases hs
      exact iff_of_true ⟨mergeDeviceControls_kept h hcontrols, trivial⟩ rfl
    · cases hs
  | clearBackend backend =>
    cases hs
    exact (and_iff_left trivial).trans (clearBackend_kept h backend)

/-! ## The constructed registry -/

theorem builtIn_kept {deviceInfo : InputDeviceInfo F} (device : InputDeviceRef)
    (hdevice : (requestedInfo deviceInfo).device = device)
    (hcontrols : allOnDevice deviceInfo.controls device = true) :
    (requestedInfo deviceInfo).Kept where
  deviceType := by simp
  controls := by
    subst hdevice
    unfold allOnDevice at hcontrols ⊢
    rw [requestedInfo_all deviceInfo fun control => isOnDevice control _]
    exact hcontrols
  connected := attachBackendInfo_connected _ _

section

variable [FloatOps F]

@[simp] theorem keyboard_device : (keyboard (F := F)).device = ⟨.keyboard, 0⟩ := rfl

@[simp] theorem keyboard_deviceType : (keyboard (F := F)).deviceType = .keyboard := rfl

@[simp] theorem mouse_device : (mouse (F := F)).device = ⟨.mouse, 0⟩ := rfl

@[simp] theorem mouse_deviceType : (mouse (F := F)).deviceType = .mouse := rfl

/-- The identities of the built-in devices differ. -/
theorem isSame_builtIn :
    isSameNativeIdentity (requestedInfo keyboard) (requestedInfo (mouse (F := F))) = false := rfl

theorem new_devices :
    (InputDeviceRegistry.new (F := F)).devices = [requestedInfo keyboard, requestedInfo mouse] := by
  have hkeyboard : (upsertDevice {} (keyboard (F := F))).1 = ⟨[requestedInfo keyboard]⟩ := by
    simp [upsertDevice, findNativeEntry, hasDeviceIndex, isMatchingDevice, isMatching,
      findDeviceEntry, search, lowerBound, lowerBoundFrom]
  unfold InputDeviceRegistry.new
  rw [hkeyboard]
  simp [upsertDevice, findNativeEntry, isSame_builtIn, hasDeviceIndex, isMatchingDevice,
    isMatching, findDeviceEntry, search, lowerBound, lowerBoundFrom, InputDeviceRef.lt,
    InputDeviceType.toInt]

/-- **The constructed registry** keeps the promise. -/
theorem new_kept : (InputDeviceRegistry.new (F := F)).Kept := by
  have hsorted : SortedBy InputDeviceRef.lt InputDeviceInfo.device
      [requestedInfo keyboard, requestedInfo (mouse (F := F))] := by
    simp [SortedBy, InputDeviceRef.lt, InputDeviceType.toInt]
  constructor <;> rw [new_devices]
  · exact hsorted
  · exact nodup_of_sorted hsorted
  · intro entry hentry
    rcases List.mem_cons.1 hentry with rfl | hentry
    · exact builtIn_kept ⟨.keyboard, 0⟩ (by simp) rfl
    · obtain rfl := List.mem_singleton.1 hentry
      exact builtIn_kept ⟨.mouse, 0⟩ (by simp) rfl
  · exact ⟨_, List.mem_cons_self, by simp⟩
  · exact ⟨requestedInfo mouse, by simp, by simp⟩

end

end InputDeviceRegistry

/-- **The registry keeps its promise** along every run of operations exactly when each of them
fits the registry it meets. -/
theorem registryKept_iff [FloatOps F] {u : InputDeviceRegistry F}
    {tr : List (Transition (InputDeviceRegistry F) (RegistryOperation F))}
    (h : Trace registryStep InputDeviceRegistry.new tr u) :
    (∀ x ∈ tr, x.post.Kept ∧ x.action.UpsertKeeps x.pre x.post) ↔
      ∀ x ∈ tr, x.action.fits x.pre = true :=
  h.steps_iff_guard (P := fun before operation after => operation.UpsertKeeps before after)
    (G := fun registry operation => operation.fits registry = true) InputDeviceRegistry.new_kept
    (fun _ _ _ hk hfits hs => (InputDeviceRegistry.step_iff hk hs).2 hfits)
    (fun _ _ _ hk hs hk' hkeeps => (InputDeviceRegistry.step_iff hk hs).1 ⟨hk', hkeeps⟩)

/-- A controller as a backend reports it. -/
def reported (deviceType : InputDeviceType) (backend : InputDeviceBackend) (identity : String)
    (hash : UInt64) (button : ControlCode) : InputDeviceInfo Int where
  device := { deviceType, deviceIndex := 0 }
  backend := backend
  deviceType := deviceType
  nativeIdentity := identity
  nativeIdentityHash := hash
  connected := true
  controls := [makeButtonControlInfo { deviceType, deviceIndex := 0, controlCode := button } "B"]

/-- Two gamepads arrive under one index, the first is found again by its identity, the keyboard
gets a second feed, and one backend is cleared. -/
def twoGamepads : List (RegistryOperation Int) :=
  [.upsertDevice (reported .gamepad .xInput "pad1" 7 1),
    .upsertDevice (reported .gamepad .rawInputHID "pad2" 8 2),
    .upsertDevice (reported .gamepad .xInput "pad1" 7 3),
    .mergeDeviceBackend ⟨.keyboard, 0⟩ (reported .keyboard .rawInputHID "board" 9 4),
    .mergeDeviceControls ⟨.gamepad, 1⟩
      [makeButtonControlInfo ⟨.gamepad, 1, .button, 5⟩ "C"],
    .setDeviceBackendConnected ⟨.keyboard, 0⟩ .builtIn false,
    .setDeviceConnected ⟨.gamepad, 1⟩ true, .clearBackend .xInput]

theorem registryKept_twoGamepads :
    (Lib.run registryStep InputDeviceRegistry.new twoGamepads).map (fun r =>
      r.1.map fun x => x.post.devices.map (·.device)) =
      some [[⟨.keyboard, 0⟩, ⟨.mouse, 0⟩, ⟨.gamepad, 0⟩],
        [⟨.keyboard, 0⟩, ⟨.mouse, 0⟩, ⟨.gamepad, 0⟩, ⟨.gamepad, 1⟩],
        [⟨.keyboard, 0⟩, ⟨.mouse, 0⟩, ⟨.gamepad, 0⟩, ⟨.gamepad, 1⟩],
        [⟨.keyboard, 0⟩, ⟨.mouse, 0⟩, ⟨.gamepad, 0⟩, ⟨.gamepad, 1⟩],
        [⟨.keyboard, 0⟩, ⟨.mouse, 0⟩, ⟨.gamepad, 0⟩, ⟨.gamepad, 1⟩],
        [⟨.keyboard, 0⟩, ⟨.mouse, 0⟩, ⟨.gamepad, 0⟩, ⟨.gamepad, 1⟩],
        [⟨.keyboard, 0⟩, ⟨.mouse, 0⟩, ⟨.gamepad, 0⟩, ⟨.gamepad, 1⟩],
        [⟨.keyboard, 0⟩, ⟨.mouse, 0⟩, ⟨.gamepad, 1⟩]] ∧
    ∀ r, Lib.run registryStep InputDeviceRegistry.new twoGamepads = some r →
      ∀ x ∈ r.1, x.post.Kept ∧ x.action.UpsertKeeps x.pre x.post := by
  refine ⟨by decide +kernel, fun r hr => (registryKept_iff (Trace.of_run hr)).2 ?_⟩
  have hfits : (Lib.run registryStep InputDeviceRegistry.new twoGamepads).all (fun r =>
      r.1.all fun x => x.action.fits x.pre) = true := by decide +kernel
  simpa [hr] using hfits

/-- A controller comes back under its native identity as a device of another type. -/
def retypedController : List (RegistryOperation Int) :=
  [.upsertDevice (reported .gamepad .rawInputHID "pad1" 7 1),
    .upsertDevice (reported .joystick .rawInputHID "pad1" 7 1)]

/-- Its entry keeps the gamepad reference and is of the other type. -/
theorem registryKept_retypedController :
    (Lib.run registryStep InputDeviceRegistry.new retypedController).map (fun r =>
      r.2.devices.map fun e => (e.device.deviceType, e.deviceType)) =
      some [(.keyboard, .keyboard), (.mouse, .mouse), (.gamepad, .joystick)] ∧
    ¬ ∀ tr u, Trace registryStep (InputDeviceRegistry.new (F := Int)) tr u →
      ∀ x ∈ tr, x.post.Kept ∧ x.action.UpsertKeeps x.pre x.post := by
  have hrun : (Lib.run registryStep InputDeviceRegistry.new retypedController).any (fun r =>
      r.1.any fun x => x.post.devices.any fun e =>
        decide (e.deviceType ≠ e.device.deviceType)) = true := by
    decide +kernel
  refine ⟨by decide +kernel, fun h => ?_⟩
  obtain ⟨r, hr, hrun⟩ := (Option.any_eq_true _ _).1 hrun
  obtain ⟨x, hx, hrun⟩ := List.any_eq_true.1 hrun
  obtain ⟨e, he, htype⟩ := List.any_eq_true.1 hrun
  exact of_decide_eq_true htype
    ((h r.1 r.2 (Trace.of_run hr) x hx).1.entries e he).deviceType

end Input
