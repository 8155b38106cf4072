import GameWIP.Input.Proof.DeviceRegistry

/-!
# One device, one entry

An upsert finds a known device by the native identity of its entry, which is that of the primary
backend alone. While no other backend with an identity of its own becomes primary in the entry
(`keepsPrimary`), records of other identities leave the device in its one entry, and an upsert of
the device answers that entry again (`upsert_again`).
-/

namespace Input

open Lib

variable {F : Type*}

/-! ## The identities of a record -/

/-- The hash is one of the identities of the record. -/
def InputDeviceInfo.Carries (entry : InputDeviceInfo F) (hash : UInt64) : Prop :=
  entry.nativeIdentityHash = hash ∨ entry.xInputNativeIdentityHash = hash ∨
    entry.hidNativeIdentityHash = hash

instance (entry : InputDeviceInfo F) (hash : UInt64) : Decidable (entry.Carries hash) :=
  inferInstanceAs (Decidable (_ ∨ _ ∨ _))

/-- The record is found under the hash. -/
structure InputDeviceInfo.Named (entry : InputDeviceInfo F) (hash : UInt64) : Prop where
  identity : entry.nativeIdentity ≠ ""
  hash : entry.nativeIdentityHash = hash

/-- The backend that becomes primary has no identity of its own, or this one. -/
def InputDeviceInfo.keepsPrimary (entry : InputDeviceInfo F) (hash : UInt64) : Bool :=
  match choosePrimaryBackend entry with
  | .builtIn => true
  | .xInput => entry.xInputNativeIdentity = "" || entry.xInputNativeIdentityHash = hash
  | .rawInputHID => entry.hidNativeIdentity = "" || entry.hidNativeIdentityHash = hash

section

variable {entry target source : InputDeviceInfo F} {hash : UInt64}

theorem refresh_carries (h : ¬ entry.Carries hash) :
    ¬ (refreshDeviceSummary entry).Carries hash := by
  unfold InputDeviceInfo.Carries at h ⊢
  unfold refreshDeviceSummary
  dsimp only
  split_ifs <;> tauto

theorem refresh_named (h : entry.Named hash) (hkeeps : entry.keepsPrimary hash = true) :
    (refreshDeviceSummary entry).Named hash := by
  unfold InputDeviceInfo.keepsPrimary at hkeeps
  unfold refreshDeviceSummary
  dsimp only
  split_ifs with hx hhid
  · rw [Bool.and_eq_true, decide_eq_true_eq, decide_eq_true_eq] at hx
    rw [hx.1] at hkeeps
    exact ⟨hx.2, by simpa [hx.2] using hkeeps⟩
  · rw [Bool.and_eq_true, decide_eq_true_eq, decide_eq_true_eq] at hhid
    rw [hhid.1] at hkeeps
    exact ⟨hhid.2, by simpa [hhid.2] using hkeeps⟩
  · exact ⟨h.identity, h.hash⟩

theorem attachFeed_carries (ht : ¬ target.Carries hash) (hs : ¬ source.Carries hash) :
    ¬ (attachFeed target source).Carries hash := by
  unfold InputDeviceInfo.Carries at ht hs ⊢
  unfold attachFeed
  cases source.backend with
  | builtIn => exact ht
  | xInput =>
    dsimp only
    split_ifs <;> tauto
  | rawInputHID =>
    dsimp only
    split_ifs <;> tauto

theorem attachRecord_carries (ht : ¬ target.Carries hash) (hs : ¬ source.Carries hash) :
    ¬ (attachRecord target source).Carries hash :=
  refresh_carries (attachFeed_carries ht hs)

/-- A record attached to an entry leaves its name, unless another backend becomes primary. -/
theorem attachRecord_named (h : target.Named hash)
    (hkeeps : (attachFeed target source).keepsPrimary hash = true) :
    (attachRecord target source).Named hash := by
  have hnamed : (attachBackendInfo target source).Named hash := by
    unfold attachBackendInfo
    refine refresh_named ⟨?_, ?_⟩ ?_ <;> unfold attachFeed at hkeeps ⊢ <;>
      cases hbackend : source.backend <;> simp only [hbackend] at hkeeps
    all_goals first | exact h.identity | exact h.hash | exact hkeeps
  exact ⟨hnamed.identity, hnamed.hash⟩

/-! ## The record of a request -/

/-- The request has the identities of the record. -/
theorem requestedInfo_carries (h : ¬ entry.Carries hash) :
    ¬ (InputDeviceRegistry.requestedInfo entry).Carries hash := by
  unfold InputDeviceRegistry.requestedInfo
  dsimp only
  refine attachRecord_carries ?_ h
  split_ifs <;> exact h

theorem refresh_identity (h : entry.nativeIdentity ≠ "") :
    (refreshDeviceSummary entry).nativeIdentity ≠ "" := by
  unfold refreshDeviceSummary
  dsimp only
  split_ifs with hx hhid
  · rw [Bool.and_eq_true, decide_eq_true_eq, decide_eq_true_eq] at hx
    exact hx.2
  · rw [Bool.and_eq_true, decide_eq_true_eq, decide_eq_true_eq] at hhid
    exact hhid.2
  · exact h

/-- A request names its device when the record does. -/
theorem requestedInfo_identity (h : entry.nativeIdentity ≠ "") :
    (InputDeviceRegistry.requestedInfo entry).nativeIdentity ≠ "" := by
  unfold InputDeviceRegistry.requestedInfo attachRecord attachBackendInfo
  dsimp only
  refine refresh_identity ?_
  unfold attachFeed
  cases entry.backend <;> dsimp only <;> split_ifs <;> exact h

end

namespace InputDeviceRegistry

variable {registry : InputDeviceRegistry F} {deviceInfo : InputDeviceInfo F}

/-! ## Upserts -/

/-- The upsert of an unknown device finds all indices of its type taken and replaces the last. -/
def overwrites (registry : InputDeviceRegistry F) (deviceInfo : InputDeviceInfo F)
    (device : InputDeviceRef) : Bool :=
  device = ⟨deviceInfo.deviceType, 255⟩ &&
    (deviceIndices.all fun index => hasDeviceIndex registry.devices deviceInfo.deviceType index) &&
    registry.devices.all fun entry => !isSameNativeIdentity entry (requestedInfo deviceInfo)

/-- An upsert of a known native identity rewrites its entry. -/
theorem upsert_known (h : SortedBy InputDeviceRef.lt InputDeviceInfo.device registry.devices)
    {native : InputDeviceInfo F}
    (hat : registry.devices[findNativeEntry registry.devices (requestedInfo deviceInfo)]? =
      some native) :
    ∃ controls, let merged := attachRecord native { requestedInfo deviceInfo with controls }
      (registry.upsertDevice deviceInfo).2 = native.device ∧
      (registry.upsertDevice deviceInfo).1.devices =
        registry.devices.set (findNativeEntry registry.devices (requestedInfo deviceInfo)) merged ∧
      SortedBy InputDeviceRef.lt InputDeviceInfo.device
        (registry.upsertDevice deviceInfo).1.devices ∧
      ∀ e, e ∈ (registry.upsertDevice deviceInfo).1.devices ↔
        e = merged ∨ e ∈ registry.devices ∧ e.device ≠ native.device := by
  refine ⟨remapControls (requestedInfo deviceInfo).controls deviceInfo.device native.device, ?_⟩
  obtain ⟨hsorted, hmem⟩ := h.set_key InputDeviceRef.lt_strictTotal hat
    (attachRecord_device native { requestedInfo deviceInfo with
      controls := remapControls (requestedInfo deviceInfo).controls deviceInfo.device
        native.device })
  simp only [attachRecord_device] at hmem
  unfold upsertDevice
  simp only [hat, attachRecord_device]
  rw [insertionSort_eq hsorted]
  exact ⟨trivial, rfl, hsorted, hmem⟩

/-- Writing an entry under its reference, new or not. -/
theorem write_spec (h : SortedBy InputDeviceRef.lt InputDeviceInfo.device registry.devices)
    (entry : InputDeviceInfo F) :
    let written :=
      if isMatchingDevice registry.devices (findDeviceEntry registry.devices entry.device)
          entry.device then
        registry.devices.set (findDeviceEntry registry.devices entry.device) entry
      else registry.devices.insertIdx (findDeviceEntry registry.devices entry.device) entry
    SortedBy InputDeviceRef.lt InputDeviceInfo.device written ∧
      ∀ e, e ∈ written ↔ e = entry ∨ e ∈ registry.devices ∧ e.device ≠ entry.device := by
  dsimp only
  by_cases hm : isMatchingDevice registry.devices
      (findDeviceEntry registry.devices entry.device) entry.device = true
  · rw [if_pos hm]
    exact h.replace InputDeviceRef.lt_strictTotal hm
  · rw [if_neg hm]
    obtain ⟨hsorted, hmem⟩ := h.insert InputDeviceRef.lt_strictTotal (eq_false_of_ne_true hm)
    refine ⟨hsorted, fun e => (hmem e).trans (or_congr_right ?_)⟩
    refine ⟨fun he => ⟨he, fun heq => hm ?_⟩, And.left⟩
    exact (h.isMatching_search InputDeviceRef.lt_strictTotal _).2 ⟨e, he, heq⟩

theorem length_write (devices : List (InputDeviceInfo F)) (entry : InputDeviceInfo F) (i : Nat)
    (matching : Bool) :
    (if matching then devices.set i entry else devices.insertIdx i entry).length ≤
      devices.length + 1 := by
  split_ifs
  · simp
  · rw [List.length_insertIdx]
    split_ifs <;> omega

/-- An upsert of an unknown native identity writes one entry, under a reference that is free
unless all indices are taken. -/
theorem upsert_unknown (h : SortedBy InputDeviceRef.lt InputDeviceInfo.device registry.devices)
    (hat : registry.devices[findNativeEntry registry.devices (requestedInfo deviceInfo)]? = none) :
    ∃ device controls,
      let filed : InputDeviceInfo F := { requestedInfo deviceInfo with device, controls }
      (registry.upsertDevice deviceInfo).2 = device ∧
      SortedBy InputDeviceRef.lt InputDeviceInfo.device
        (registry.upsertDevice deviceInfo).1.devices ∧
      (∀ e, e ∈ (registry.upsertDevice deviceInfo).1.devices ↔
        e = filed ∨ e ∈ registry.devices ∧ e.device ≠ device) ∧
      ((∀ e ∈ registry.devices, e.device ≠ device) ∨
        registry.overwrites deviceInfo device = true) ∧
      (registry.upsertDevice deviceInfo).1.devices.length ≤ registry.devices.length + 1 := by
  have hwrite : ∀ entry : InputDeviceInfo F,
      (if isMatchingDevice registry.devices (findDeviceEntry registry.devices entry.device)
          entry.device then
        (InputDeviceRegistry.mk (registry.devices.set
          (findDeviceEntry registry.devices entry.device) entry), entry.device)
      else (InputDeviceRegistry.mk (registry.devices.insertIdx
          (findDeviceEntry registry.devices entry.device) entry), entry.device)) =
        (.mk (if isMatchingDevice registry.devices
            (findDeviceEntry registry.devices entry.device) entry.device then
          registry.devices.set (findDeviceEntry registry.devices entry.device) entry
        else registry.devices.insertIdx (findDeviceEntry registry.devices entry.device) entry),
          entry.device) := by
    intro entry
    split_ifs <;> rfl
  have hunknown := findNativeEntry_none hat
  unfold upsertDevice
  simp only [hat]
  rw [hwrite]
  by_cases htaken : hasDeviceIndex registry.devices (requestedInfo deviceInfo).device.deviceType
      (requestedInfo deviceInfo).device.deviceIndex = true
  · rw [if_pos htaken]
    refine ⟨_, _, rfl, (write_spec h _).1, (write_spec h _).2, ?_, length_write _ _ _ _⟩
    have hfree := allocateDeviceIndex_free registry.devices deviceInfo.deviceType
    simp only [requestedInfo_device]
    cases hany : deviceIndices.any fun index =>
        !hasDeviceIndex registry.devices deviceInfo.deviceType index with
    | true =>
      rw [hany] at hfree
      refine .inl fun e he heq => ?_
      rw [hasDeviceIndex_iff.2 ⟨e, he, heq⟩] at hfree
      cases hfree
    | false =>
      have hall : ∀ index ∈ deviceIndices,
          hasDeviceIndex registry.devices deviceInfo.deviceType index = true := by
        simpa using hany
      have hlast : allocateDeviceIndex registry.devices deviceInfo.deviceType = 255 := by
        unfold allocateDeviceIndex
        rw [List.find?_eq_none.2 fun index hindex => by simp [hall index hindex]]
        rfl
      refine .inr ?_
      rw [overwrites, hlast, Bool.and_eq_true, Bool.and_eq_true, decide_eq_true_eq]
      refine ⟨⟨rfl, List.all_eq_true.2 hall⟩, List.all_eq_true.2 fun e he => ?_⟩
      rw [hunknown e he]
      rfl
  · rw [if_neg htaken]
    refine ⟨(requestedInfo deviceInfo).device, (requestedInfo deviceInfo).controls, rfl,
      (write_spec h _).1, (write_spec h _).2, .inl fun e he heq => ?_, length_write _ _ _ _⟩
    exact htaken (hasDeviceIndex_iff.2 ⟨e, he, heq⟩)

/-! ## The entry of an identity -/

/-- The identity is filed under the reference, and no other entry has it among its own. -/
structure Files (registry : InputDeviceRegistry F) (hash : UInt64) (device : InputDeviceRef) :
    Prop where
  sorted : SortedBy InputDeviceRef.lt InputDeviceInfo.device registry.devices
  filed : ∃ entry ∈ registry.devices, entry.device = device ∧ entry.Named hash
  others : ∀ entry ∈ registry.devices, entry.device ≠ device → ¬ entry.Carries hash

/-- The upsert puts the identity of the record on one entry: no other entry has it among its
identities, and the backend that is primary in that entry then has no identity but this. -/
def filesIdentity (registry : InputDeviceRegistry F) (deviceInfo : InputDeviceInfo F) : Bool :=
  let devices := registry.devices
  let hash := (requestedInfo deviceInfo).nativeIdentityHash
  hash ≠ 0 &&
    match devices[findNativeEntry devices (requestedInfo deviceInfo)]? with
    | some native =>
      (attachFeed native (requestedInfo deviceInfo)).keepsPrimary hash &&
        devices.all fun entry => entry.device = native.device || !decide (entry.Carries hash)
    | none => devices.all fun entry => !decide (entry.Carries hash)

variable {hash : UInt64} {device : InputDeviceRef}

/-- **The upsert of a device** files its identity. -/
theorem upsert_files (h : SortedBy InputDeviceRef.lt InputDeviceInfo.device registry.devices)
    (hidentity : deviceInfo.nativeIdentity ≠ "")
    (hfiles : registry.filesIdentity deviceInfo = true) :
    (registry.upsertDevice deviceInfo).1.Files (requestedInfo deviceInfo).nativeIdentityHash
        (registry.upsertDevice deviceInfo).2 ∧
      (registry.upsertDevice deviceInfo).1.devices.length ≤ registry.devices.length + 1 := by
  unfold filesIdentity at hfiles
  rw [Bool.and_eq_true] at hfiles
  obtain ⟨hnonzero, hfiles⟩ := hfiles
  cases hat : registry.devices[findNativeEntry registry.devices (requestedInfo deviceInfo)]? with
  | some native =>
    simp only [hat, Bool.and_eq_true, List.all_eq_true, Bool.or_eq_true, decide_eq_true_eq,
      Bool.not_eq_true', decide_eq_false_iff_not] at hfiles
    have hnamed := findNativeEntry_some hat
    obtain ⟨controls, hanswer, hset, hsorted, hmem⟩ := upsert_known h hat
    rw [hanswer]
    refine ⟨⟨hsorted, ⟨_, (hmem _).2 (.inl rfl), ?_, ?_⟩, fun e he hne => ?_⟩, ?_⟩
    · exact attachRecord_device _ _
    · simp only [isSameNativeIdentity, Bool.and_eq_true, decide_eq_true_eq] at hnamed
      exact attachRecord_named ⟨hnamed.1.1, hnamed.2⟩ hfiles.1
    · rcases (hmem e).1 he with rfl | ⟨he, -⟩
      · exact absurd (attachRecord_device _ _) hne
      · exact (hfiles.2 e he).resolve_left hne
    · rw [hset, List.length_set]
      exact Nat.le_succ _
  | none =>
    simp only [hat, List.all_eq_true, Bool.not_eq_true', decide_eq_false_iff_not] at hfiles
    obtain ⟨device, controls, hanswer, hsorted, hmem, -, hlength⟩ := upsert_unknown h hat
    rw [hanswer]
    refine ⟨⟨hsorted, ⟨_, (hmem _).2 (.inl rfl), rfl, ?_⟩, fun e he hne => ?_⟩, hlength⟩
    · exact ⟨requestedInfo_identity hidentity, rfl⟩
    · rcases (hmem e).1 he with rfl | ⟨he, -⟩
      · exact absurd rfl hne
      · exact hfiles e he

/-- **The upsert of a filed device** answers its entry and adds none. -/
theorem Files.upsert (h : registry.Files (requestedInfo deviceInfo).nativeIdentityHash device)
    (hnonzero : (requestedInfo deviceInfo).nativeIdentityHash ≠ 0) :
    (registry.upsertDevice deviceInfo).2 = device ∧
      (registry.upsertDevice deviceInfo).1.devices.map (·.device) =
        registry.devices.map (·.device) := by
  obtain ⟨entry, hentry, hdevice, hnamed⟩ := h.filed
  have hsame : isSameNativeIdentity entry (requestedInfo deviceInfo) = true := by
    simp [isSameNativeIdentity, hnamed.identity, hnamed.hash, hnonzero]
  cases hat : registry.devices[findNativeEntry registry.devices (requestedInfo deviceInfo)]? with
  | none =>
    rw [findNativeEntry_none hat entry hentry] at hsame
    cases hsame
  | some native =>
    obtain ⟨controls, hanswer, hset, -, -⟩ := upsert_known h.sorted hat
    have hfound := findNativeEntry_some hat
    simp only [isSameNativeIdentity, Bool.and_eq_true, decide_eq_true_eq] at hfound
    constructor
    · rw [hanswer]
      by_contra hne
      exact h.others native (List.mem_of_getElem? hat) hne (.inl hfound.2)
    · rw [hset, List.map_set, attachRecord_device]
      apply List.ext_getElem?
      intro i
      by_cases hi : findNativeEntry registry.devices (requestedInfo deviceInfo) = i
      · subst hi
        have hlt := (List.getElem?_eq_some_iff.1 hat).1
        rw [List.getElem?_set_self (by simpa using hlt), List.getElem?_map, hat]
        rfl
      · rw [List.getElem?_set_ne hi]

/-- **The upsert of another identity** leaves the filed one alone, unless it overwrites it. -/
theorem Files.upsert_other (h : registry.Files hash device) (hother : ¬ deviceInfo.Carries hash)
    (hkeeps : registry.overwrites deviceInfo device = false) :
    (registry.upsertDevice deviceInfo).1.Files hash device := by
  obtain ⟨entry, hentry, hdevice, hnamed⟩ := h.filed
  have hrequested := requestedInfo_carries hother
  cases hat : registry.devices[findNativeEntry registry.devices (requestedInfo deviceInfo)]? with
  | some native =>
    have hfound := findNativeEntry_some hat
    simp only [isSameNativeIdentity, Bool.and_eq_true, decide_eq_true_eq] at hfound
    have hnative := List.mem_of_getElem? hat
    have hne : native.device ≠ device := by
      intro heq
      have hsame := h.sorted.eq_of_key InputDeviceRef.lt_strictTotal hnative hentry
        (heq.trans hdevice.symm)
      rw [hsame, hnamed.hash] at hfound
      exact hrequested (.inl hfound.2.symm)
    obtain ⟨controls, -, -, hsorted, hmem⟩ := upsert_known h.sorted hat
    refine ⟨hsorted, ⟨entry, (hmem _).2 (.inr ⟨hentry, ?_⟩), hdevice, hnamed⟩, fun e he hedevice => ?_⟩
    · rw [hdevice]
      exact hne.symm
    · rcases (hmem e).1 he with rfl | ⟨he, -⟩
      · exact attachRecord_carries (h.others native hnative hne) hrequested
      · exact h.others e he hedevice
  | none =>
    obtain ⟨device', controls, -, hsorted, hmem, hplace, -⟩ := upsert_unknown h.sorted hat
    have hne : device ≠ device' := by
      intro heq
      subst heq
      rcases hplace with hfree | hover
      · exact hfree entry hentry hdevice
      · rw [hkeeps] at hover
        cases hover
    refine ⟨hsorted, ⟨entry, (hmem _).2 (.inr ⟨hentry, hdevice ▸ hne⟩), hdevice, hnamed⟩,
      fun e he hedevice => ?_⟩
    rcases (hmem e).1 he with rfl | ⟨he, -⟩
    · exact hrequested
    · exact h.others e he hedevice

/-! ## Changes of one entry -/

theorem modifyDevice_spec (h : SortedBy InputDeviceRef.lt InputDeviceInfo.device registry.devices)
    (target : InputDeviceRef) {change : InputDeviceInfo F → InputDeviceInfo F}
    (hdevice : ∀ entry, (change entry).device = entry.device) :
    SortedBy InputDeviceRef.lt InputDeviceInfo.device
        (registry.modifyDevice target change).devices ∧
      ∀ e, e ∈ (registry.modifyDevice target change).devices ↔
        (∃ entry ∈ registry.devices, entry.device = target ∧ e = change entry) ∨
          e ∈ registry.devices ∧ e.device ≠ target := by
  unfold modifyDevice
  dsimp only
  by_cases hm : isMatchingDevice registry.devices (findDeviceEntry registry.devices target)
      target = true
  · rw [if_pos hm]
    obtain ⟨entry, hat, hentry⟩ := SortedBy.exists_matching hm
    have hfound : registry.devices[findDeviceEntry registry.devices target]? = some entry := hat
    have hmodify : registry.devices.modify (findDeviceEntry registry.devices target) change =
        registry.devices.set (findDeviceEntry registry.devices target) (change entry) := by
      rw [List.modify_eq_set_getElem?, hfound]
      rfl
    obtain ⟨hsorted, hmem⟩ := h.set_key InputDeviceRef.lt_strictTotal hat (hdevice entry)
    dsimp only
    rw [hmodify]
    refine ⟨hsorted, fun e => (hmem e).trans ?_⟩
    rw [hdevice, hentry]
    refine or_congr ⟨fun he => ⟨entry, List.mem_of_getElem? hat, hentry, he⟩, ?_⟩ Iff.rfl
    rintro ⟨other, hother, htarget, rfl⟩
    rw [h.eq_of_key InputDeviceRef.lt_strictTotal hother (List.mem_of_getElem? hat)
      (htarget.trans hentry.symm)]
  · rw [if_neg hm]
    have hnone : ∀ entry ∈ registry.devices, entry.device ≠ target := fun entry hentry heq =>
      hm ((h.isMatching_search InputDeviceRef.lt_strictTotal target).2 ⟨entry, hentry, heq⟩)
    refine ⟨h, fun e => ⟨fun he => .inr ⟨he, hnone e he⟩, ?_⟩⟩
    rintro (⟨entry, hentry, htarget, -⟩ | he)
    · exact absurd htarget (hnone entry hentry)
    · exact he.1

/-- **A change of one entry** keeps the identity filed when it brings it nowhere else and leaves
the name of the filed entry. -/
theorem Files.modify (h : registry.Files hash device) (target : InputDeviceRef)
    {change : InputDeviceInfo F → InputDeviceInfo F}
    (hdevice : ∀ entry, (change entry).device = entry.device)
    (hothers : ∀ entry, ¬ entry.Carries hash → ¬ (change entry).Carries hash)
    (hnames : target = device → ∀ entry ∈ registry.devices, entry.device = device →
      entry.Named hash → (change entry).Named hash) :
    (registry.modifyDevice target change).Files hash device := by
  obtain ⟨hsorted, hmem⟩ := modifyDevice_spec h.sorted target hdevice
  obtain ⟨entry, hentry, hentryDevice, hnamed⟩ := h.filed
  refine ⟨hsorted, ?_, fun e he hne => ?_⟩
  · by_cases htarget : target = device
    · refine ⟨change entry, (hmem _).2 (.inl ⟨entry, hentry, ?_, rfl⟩), ?_, ?_⟩
      · rw [hentryDevice, htarget]
      · rw [hdevice, hentryDevice]
      · exact hnames htarget entry hentry hentryDevice hnamed
    · refine ⟨entry, (hmem _).2 (.inr ⟨hentry, ?_⟩), hentryDevice, hnamed⟩
      rw [hentryDevice]
      exact Ne.symm htarget
  · rcases (hmem e).1 he with ⟨other, hother, -, rfl⟩ | ⟨he, -⟩
    · rw [hdevice] at hne
      exact hothers other (h.others other hother hne)
    · exact h.others e he hne

/-! ## Sorted registries -/

/-- Every operation keeps the references in order. -/
theorem sorted_apply (h : SortedBy InputDeviceRef.lt InputDeviceInfo.device registry.devices)
    (operation : RegistryOperation F) :
    SortedBy InputDeviceRef.lt InputDeviceInfo.device (registry.apply operation).devices := by
  have hupsert : ∀ deviceInfo, SortedBy InputDeviceRef.lt InputDeviceInfo.device
      (registry.upsertDevice deviceInfo).1.devices := by
    intro deviceInfo
    cases hat : registry.devices[findNativeEntry registry.devices (requestedInfo deviceInfo)]? with
    | some native =>
      obtain ⟨_, -, -, hsorted, -⟩ := upsert_known h hat
      exact hsorted
    | none =>
      obtain ⟨_, _, -, hsorted, -⟩ := upsert_unknown h hat
      exact hsorted
  cases operation with
  | upsertDevice deviceInfo => exact hupsert deviceInfo
  | mergeDeviceBackend target backendInfo =>
    show SortedBy InputDeviceRef.lt InputDeviceInfo.device
      (registry.mergeDeviceBackend target backendInfo).1.devices
    unfold mergeDeviceBackend
    dsimp only
    split_ifs
    · exact hupsert backendInfo
    · exact (modifyDevice_spec h target fun entry => attachRecord_device entry backendInfo).1
  | setDeviceConnected target connected =>
    refine (modifyDevice_spec h target fun entry => ?_).1
    cases connected <;> simp
  | setDeviceBackendConnected target backend connected =>
    exact (modifyDevice_spec h target fun entry => by simp).1
  | setDeviceCanonical target canonical =>
    refine (modifyDevice_spec h target fun entry => ?_).1
    rfl
  | mergeDeviceControls target controls =>
    refine (modifyDevice_spec h target fun entry => ?_).1
    rfl
  | clearBackend backend =>
    show SortedBy InputDeviceRef.lt InputDeviceInfo.device (registry.clearBackend backend).devices
    unfold clearBackend
    split_ifs
    · exact h
    · refine List.Pairwise.sublist List.filter_sublist ?_
      rw [List.pairwise_map]
      exact h.imp fun hlt => by simpa using hlt

end InputDeviceRegistry

open InputDeviceRegistry

theorem registryStep_eq {registry next : InputDeviceRegistry F} {operation : RegistryOperation F}
    (hs : registryStep registry operation = some next) : next = registry.apply operation := by
  unfold registryStep at hs
  cases operation with
  | mergeDeviceControls target controls =>
    dsimp only at hs
    split_ifs at hs
    exact (Option.some.inj hs).symm
  | _ => exact (Option.some.inj hs).symm

/-! ## The condition -/

/-- The operation brings no record of the identity, and clears no backend. -/
def RegistryOperation.otherIdentity (hash : UInt64) : RegistryOperation F → Bool
  | .upsertDevice deviceInfo => !decide (deviceInfo.Carries hash)
  | .mergeDeviceBackend _ backendInfo => !decide (backendInfo.Carries hash)
  | .clearBackend _ => false
  | _ => true

/-- In the filed entry no backend with another identity becomes primary, and no upsert overwrites
the entry. -/
def RegistryOperation.keepsIdentity (registry : InputDeviceRegistry F) (hash : UInt64)
    (device : InputDeviceRef) : RegistryOperation F → Bool
  | .upsertDevice deviceInfo => !registry.overwrites deviceInfo device
  | .mergeDeviceBackend target backendInfo =>
    if registry.devices.any fun entry => entry.device = target then
      keeps target fun entry => attachFeed entry backendInfo
    else !registry.overwrites backendInfo device
  | .setDeviceConnected target connected =>
    keeps target fun entry =>
      if !connected then { entry with hasXInputFeed := false, hasHidFeed := false } else entry
  | .setDeviceBackendConnected target backend connected =>
    keeps target fun entry => setFeed entry backend connected
  | _ => true
where
  keeps (target : InputDeviceRef) (feeds : InputDeviceInfo F → InputDeviceInfo F) : Bool :=
    target ≠ device ||
      registry.devices.all fun entry => entry.device ≠ device || (feeds entry).keepsPrimary hash

section

variable {registry next : InputDeviceRegistry F} {hash : UInt64} {device : InputDeviceRef}

/-- The entry of a reference that another one is not. -/
theorem keeps_named {target : InputDeviceRef} {feeds : InputDeviceInfo F → InputDeviceInfo F}
    (hkeeps : RegistryOperation.keepsIdentity.keeps registry hash device target feeds = true)
    (htarget : target = device) {entry : InputDeviceInfo F} (hentry : entry ∈ registry.devices)
    (hdevice : entry.device = device) : (feeds entry).keepsPrimary hash = true := by
  unfold RegistryOperation.keepsIdentity.keeps at hkeeps
  rw [Bool.or_eq_true, decide_eq_true_eq, List.all_eq_true] at hkeeps
  have hall := hkeeps.resolve_left (not_not_intro htarget) entry hentry
  rw [Bool.or_eq_true, decide_eq_true_eq] at hall
  exact hall.resolve_left (not_not_intro hdevice)

/-- **One operation** keeps the identity filed. -/
theorem InputDeviceRegistry.Files.step (h : registry.Files hash device)
    {operation : RegistryOperation F} (hother : operation.otherIdentity hash = true)
    (hkeeps : operation.keepsIdentity registry hash device = true) :
    (registry.apply operation).Files hash device := by
  cases operation with
  | upsertDevice deviceInfo =>
    simp only [RegistryOperation.otherIdentity, Bool.not_eq_true', decide_eq_false_iff_not]
      at hother
    simp only [RegistryOperation.keepsIdentity, Bool.not_eq_true'] at hkeeps
    exact h.upsert_other hother hkeeps
  | mergeDeviceBackend target backendInfo =>
    simp only [RegistryOperation.otherIdentity, Bool.not_eq_true', decide_eq_false_iff_not]
      at hother
    unfold RegistryOperation.keepsIdentity at hkeeps
    dsimp only at hkeeps
    show (registry.mergeDeviceBackend target backendInfo).1.Files hash device
    have hiff := h.sorted.isMatching_search InputDeviceRef.lt_strictTotal target
    unfold mergeDeviceBackend
    dsimp only
    by_cases hm : isMatchingDevice registry.devices (findDeviceEntry registry.devices target)
        target = true
    · have hany : (registry.devices.any fun entry => entry.device = target) = true := by
        simpa using hiff.1 hm
      rw [if_pos hany] at hkeeps
      rw [hm]
      exact h.modify target (fun entry => attachRecord_device entry backendInfo)
        (fun entry hcarries => attachRecord_carries hcarries hother)
        fun htarget entry hentry hdevice hnamed =>
          attachRecord_named hnamed (keeps_named hkeeps htarget hentry hdevice)
    · have hany : ¬ (registry.devices.any fun entry => entry.device = target) = true := by
        intro hany
        exact hm (hiff.2 (by simpa using hany))
      rw [if_neg hany, Bool.not_eq_true'] at hkeeps
      rw [eq_false_of_ne_true hm]
      exact h.upsert_other hother hkeeps
  | setDeviceConnected target connected =>
    refine h.modify target (fun entry => ?_) (fun entry hcarries => ?_)
      fun htarget entry hentry hdevice hnamed => ?_
    · cases connected <;> simp
    · cases connected <;> exact refresh_carries hcarries
    · have hprimary := keeps_named hkeeps htarget hentry hdevice
      cases connected with
      | false => exact refresh_named ⟨hnamed.identity, hnamed.hash⟩ hprimary
      | true => exact refresh_named ⟨hnamed.identity, hnamed.hash⟩ hprimary
  | setDeviceBackendConnected target backend connected =>
    refine h.modify target (fun entry => by simp) (fun entry hcarries => refresh_carries ?_)
      fun htarget entry hentry hdevice hnamed => refresh_named ?_ ?_
    · cases backend <;> exact hcarries
    · cases backend <;> exact ⟨hnamed.identity, hnamed.hash⟩
    · exact keeps_named hkeeps htarget hentry hdevice
  | setDeviceCanonical target canonical =>
    refine h.modify target (fun entry => ?_) (fun entry hcarries => ?_)
      fun htarget entry hentry hdevice hnamed => ?_
    · rfl
    · exact hcarries
    · exact ⟨hnamed.identity, hnamed.hash⟩
  | mergeDeviceControls target controls =>
    refine h.modify target (fun entry => ?_) (fun entry hcarries => ?_)
      fun htarget entry hentry hdevice hnamed => ?_
    · rfl
    · exact hcarries
    · exact ⟨hnamed.identity, hnamed.hash⟩
  | clearBackend backend => cases hother

end

/-- **A device upserted again** is found in its one entry, whatever operations with other
identities lie between, as long as no backend with another identity becomes primary in the entry. -/
theorem upsert_again [FloatOps F] {setup tr : List (Transition (InputDeviceRegistry F)
      (RegistryOperation F))} {before after : InputDeviceRegistry F}
    (hsetup : Trace registryStep InputDeviceRegistry.new setup before)
    {deviceInfo : InputDeviceInfo F} (hidentity : deviceInfo.nativeIdentity ≠ "")
    (hrun : Trace registryStep (before.upsertDevice deviceInfo).1 tr after)
    (hother : ∀ x ∈ tr,
      x.action.otherIdentity (requestedInfo deviceInfo).nativeIdentityHash = true)
    (hfiles : before.filesIdentity deviceInfo = true)
    (hkeeps : ∀ x ∈ tr, x.action.keepsIdentity x.pre (requestedInfo deviceInfo).nativeIdentityHash
      (before.upsertDevice deviceInfo).2 = true) :
    (after.upsertDevice deviceInfo).2 = (before.upsertDevice deviceInfo).2 ∧
      (before.upsertDevice deviceInfo).1.devices.length ≤ before.devices.length + 1 ∧
      (after.upsertDevice deviceInfo).1.devices.map (·.device) = after.devices.map (·.device) ∧
      ∀ entry ∈ after.devices, isSameNativeIdentity entry (requestedInfo deviceInfo) = true →
        entry.device = (before.upsertDevice deviceInfo).2 := by
  have hsorted := (hsetup.invariant_of_step
    (I := fun registry => SortedBy InputDeviceRef.lt InputDeviceInfo.device registry.devices)
    InputDeviceRegistry.new_kept.sorted fun registry operation next h hs => by
      rw [registryStep_eq hs]
      exact sorted_apply h operation).1
  obtain ⟨hstart, hlength⟩ := upsert_files hsorted hidentity hfiles
  have hfiled := (hrun.invariant (I := fun registry =>
      registry.Files (requestedInfo deviceInfo).nativeIdentityHash
        (before.upsertDevice deviceInfo).2) hstart
    (G := fun registry operation =>
      operation.otherIdentity (requestedInfo deviceInfo).nativeIdentityHash = true ∧
        operation.keepsIdentity registry (requestedInfo deviceInfo).nativeIdentityHash
          (before.upsertDevice deviceInfo).2 = true)
    (fun registry operation next h hguard hs => by
      rw [registryStep_eq hs]
      exact h.step hguard.1 hguard.2) fun x hx => ⟨hother x hx, hkeeps x hx⟩).1
  have hnonzero : (requestedInfo deviceInfo).nativeIdentityHash ≠ 0 := by
    unfold filesIdentity at hfiles
    rw [Bool.and_eq_true, decide_eq_true_eq] at hfiles
    exact hfiles.1
  obtain ⟨hanswer, hdevices⟩ := hfiled.upsert hnonzero
  refine ⟨hanswer, hlength, hdevices, fun entry hentry hsame => ?_⟩
  simp only [isSameNativeIdentity, Bool.and_eq_true, decide_eq_true_eq] at hsame
  by_contra hne
  exact hfiled.others entry hentry hne (.inl hsame.2)

/-- A gamepad of one backend. -/
def pad : InputDeviceInfo Int := reported .gamepad .xInput "pad" 7 1

/-- The other backend is merged into its entry and detached again, and another gamepad comes. -/
def padOperations : List (RegistryOperation Int) :=
  [.mergeDeviceBackend ⟨.gamepad, 0⟩ (reported .gamepad .rawInputHID "hid" 8 1),
    .setDeviceBackendConnected ⟨.gamepad, 0⟩ .rawInputHID false,
    .upsertDevice (reported .gamepad .rawInputHID "other" 9 2)]

/-- The gamepad keeps its entry. -/
theorem upsert_again_pad :
    (Lib.run registryStep (InputDeviceRegistry.new.upsertDevice pad).1 padOperations).map
      (fun r => (r.2.devices.map (·.device), (r.2.upsertDevice pad).2)) =
        some ([⟨.keyboard, 0⟩, ⟨.mouse, 0⟩, ⟨.gamepad, 0⟩, ⟨.gamepad, 1⟩], ⟨.gamepad, 0⟩) ∧
    ∀ r, Lib.run registryStep (InputDeviceRegistry.new.upsertDevice pad).1 padOperations = some r →
      (r.2.upsertDevice pad).2 = (InputDeviceRegistry.new.upsertDevice pad).2 := by
  refine ⟨by decide +kernel, fun r hr => ?_⟩
  have hguard : (Lib.run registryStep (InputDeviceRegistry.new.upsertDevice pad).1
      padOperations).all (fun r => r.1.all fun x =>
        x.action.otherIdentity (requestedInfo pad).nativeIdentityHash &&
          x.action.keepsIdentity x.pre (requestedInfo pad).nativeIdentityHash
            (InputDeviceRegistry.new.upsertDevice pad).2) = true := by decide +kernel
  simp only [hr, Option.all_some, List.all_eq_true, Bool.and_eq_true] at hguard
  exact (upsert_again (.nil _) (by decide) (Trace.of_run hr) (fun x hx => (hguard x hx).1)
    (by decide +kernel) fun x hx => (hguard x hx).2).1

/-- The gamepad as the other backend reports it, before `XInput` is merged into its entry. -/
def hidPad : InputDeviceInfo Int := reported .gamepad .rawInputHID "hid" 8 1

/-- Once `XInput` is primary the identity of the other backend is no longer found: the same
gamepad gets a second entry. -/
theorem upsert_again_merged :
    (Lib.run registryStep (InputDeviceRegistry.new.upsertDevice hidPad).1
      [.mergeDeviceBackend ⟨.gamepad, 0⟩ pad]).map (fun r =>
        ((InputDeviceRegistry.new.upsertDevice hidPad).2, (r.2.upsertDevice hidPad).2,
          (r.2.upsertDevice hidPad).1.devices.map (·.device))) =
        some (⟨.gamepad, 0⟩, ⟨.gamepad, 1⟩,
          [⟨.keyboard, 0⟩, ⟨.mouse, 0⟩, ⟨.gamepad, 0⟩, ⟨.gamepad, 1⟩]) ∧
    ¬ ∀ (setup tr) (before after : InputDeviceRegistry Int) (deviceInfo : InputDeviceInfo Int),
      Trace registryStep InputDeviceRegistry.new setup before →
      deviceInfo.nativeIdentity ≠ "" → deviceInfo.nativeIdentityHash ≠ 0 →
      Trace registryStep (before.upsertDevice deviceInfo).1 tr after →
      (∀ x ∈ tr, x.action.otherIdentity deviceInfo.nativeIdentityHash = true) →
      (after.upsertDevice deviceInfo).2 = (before.upsertDevice deviceInfo).2 := by
  refine ⟨by decide +kernel, fun h => ?_⟩
  have hrun : (Lib.run registryStep (InputDeviceRegistry.new.upsertDevice hidPad).1
      [.mergeDeviceBackend ⟨.gamepad, 0⟩ pad]).any (fun r =>
        (r.1.all fun x => x.action.otherIdentity hidPad.nativeIdentityHash) &&
          decide ((r.2.upsertDevice hidPad).2 ≠
            (InputDeviceRegistry.new.upsertDevice hidPad).2)) = true := by decide +kernel
  obtain ⟨r, hr, hlost⟩ := (Option.any_eq_true _ _).1 hrun
  rw [Bool.and_eq_true, List.all_eq_true, decide_eq_true_eq] at hlost
  exact hlost.2 (h _ _ _ _ hidPad (.nil _) (by decide) (by decide) (Trace.of_run hr) hlost.1)

end Input
