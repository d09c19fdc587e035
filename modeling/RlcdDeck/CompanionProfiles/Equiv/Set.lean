import RlcdDeck.Bytes.Equiv.LittleEndian
import RlcdDeck.CompanionProfiles.Set
import Mathlib.Data.List.TakeWhile

/-!
# The codec of the stored set

`decode_set` accepts only valid sets, and it takes back what `encode_set` wrote
(`encodeSet_eq`, `decodeSet_setBytes`).
-/

namespace RlcdDeck.CompanionProfiles

open Bytes

/-! ### Strings -/

variable {value : CString} {capacity : ℕ}

theorem ne_zero_of_safeAscii {allowEmpty : Bool} (h : safeAscii value capacity allowEmpty = true) :
    ∀ byte ∈ value, byte ≠ 0 := by
  rw [safeAscii, Bool.and_eq_true, List.all_eq_true] at h
  intro byte hbyte hzero
  have hrange := h.2 byte hbyte
  rw [hzero] at hrange
  exact absurd hrange (by decide)

theorem ne_zero_of_validBase64url {size : ℕ} (h : validBase64url value size = true) :
    ∀ byte ∈ value, byte ≠ 0 := by
  rw [validBase64url, Bool.and_eq_true, List.all_eq_true] at h
  intro byte hbyte hzero
  have hrange := h.2 byte hbyte
  rw [hzero] at hrange
  exact absurd hrange (by decide)

theorem ne_zero_of_validFingerprint (h : validFingerprint value = true) :
    ∀ byte ∈ value, byte ≠ 0 := by
  rw [validFingerprint, Bool.and_eq_true, Bool.and_eq_true, List.all_eq_true] at h
  intro byte hbyte hzero
  rw [← List.take_append_drop 7 value, List.mem_append] at hbyte
  rcases hbyte with hheader | hdigits
  · rw [beq_iff_eq.mp h.1.2, hzero] at hheader
    exact absurd hheader (by decide)
  · have hrange := h.2 byte hdigits
    rw [hzero] at hrange
    exact absurd hrange (by decide)

theorem readString_append (hcapacity : capacity ≤ 256) (hlength : value.length < capacity)
    (hzero : ∀ byte ∈ value, byte ≠ 0) (rest : List UInt8) :
    readString (UInt8.ofNat value.length :: value ++ rest) capacity = some (value, rest) := by
  have hsize : (UInt8.ofNat value.length).toNat = value.length := by
    rw [UInt8.toNat_ofNat']
    omega
  have hall : ∀ byte ∈ value, (byte != 0) = true := fun byte hbyte => by
    simpa using hzero byte hbyte
  rw [List.cons_append, readString, hsize, if_neg (by simp; omega), List.take_left, List.drop_left,
    List.takeWhile_eq_self_iff.mpr hall]

theorem readBytes_append {value : List UInt8} (hcapacity : capacity < 65536)
    (hnonempty : value.length ≠ 0) (hlength : value.length ≤ capacity) (rest : List UInt8) :
    readBytes
        ([UInt8.ofNat value.length, UInt8.ofNat (value.length / 256)] ++ value ++ rest)
        capacity = some (value, rest) := by
  have hsize := read_lengthBytes (show value.length < 65536 by omega)
  show readBytes (UInt8.ofNat value.length :: UInt8.ofNat (value.length / 256) ::
    (value ++ rest)) capacity = _
  rw [readBytes]
  simp only [hsize]
  rw [if_neg, List.take_left, List.drop_left]
  rintro (hempty | hlarge | hshort)
  · exact hnonempty hempty
  · omega
  · rw [List.length_append] at hshort
    omega

/-! ### Profiles -/

/-- What `valid_profile` says of the lengths and bytes of the fields. -/
structure Storable (profile : StoredProfile) : Prop where
  profileId : profile.profileId.length = 71 ∧ ∀ byte ∈ profile.profileId, byte ≠ 0
  displayName : profile.displayName.length < addressCapacity ∧ ∀ byte ∈ profile.displayName, byte ≠ 0
  hubAddress : profile.hubAddress.length < addressCapacity ∧ ∀ byte ∈ profile.hubAddress, byte ≠ 0
  token : profile.token.length = 43 ∧ ∀ byte ∈ profile.token, byte ≠ 0
  fingerprint : profile.certificateFingerprint.length = 71 ∧
    ∀ byte ∈ profile.certificateFingerprint, byte ≠ 0
  certificateDer : profile.certificateDer.length ≠ 0 ∧
    profile.certificateDer.length ≤ certificateDerCapacity

theorem safeAscii_of_validAddress {address : CString} (h : validAddress address = true) :
    safeAscii address addressCapacity false = true := by
  by_contra hno
  rw [Bool.not_eq_true] at hno
  rw [validAddress, addressPort, if_pos hno] at h
  exact absurd h Bool.false_ne_true

theorem length_of_safeAscii {allowEmpty : Bool} (h : safeAscii value capacity allowEmpty = true) :
    value.length < capacity := by
  rw [safeAscii, Bool.and_eq_true, Bool.and_eq_true, terminated, decide_eq_true_eq] at h
  exact h.1.1

theorem length_of_validFingerprint (h : validFingerprint value = true) :
    value.length = 71 := by
  rw [validFingerprint, Bool.and_eq_true, Bool.and_eq_true, beq_iff_eq] at h
  exact h.1.1

variable {profile : StoredProfile}

theorem storable_of_valid (h : profile.valid = true) :
    Storable profile := by
  simp only [StoredProfile.valid, Bool.and_eq_true, bne_iff_ne, decide_eq_true_eq] at h
  obtain ⟨⟨⟨⟨⟨⟨⟨⟨⟨-, hid⟩, hname⟩, haddress⟩, -⟩, htoken⟩, hfingerprint⟩, hnonempty⟩, hder⟩, -⟩ := h
  have hhub := safeAscii_of_validAddress haddress
  have htokenLength : profile.token.length = 43 := by
    rw [validBase64url, Bool.and_eq_true, beq_iff_eq] at htoken
    exact htoken.1
  exact
    { profileId := ⟨length_of_validFingerprint hid, ne_zero_of_validFingerprint hid⟩
      displayName := ⟨length_of_safeAscii hname, ne_zero_of_safeAscii hname⟩
      hubAddress := ⟨length_of_safeAscii hhub, ne_zero_of_safeAscii hhub⟩
      token := ⟨htokenLength, ne_zero_of_validBase64url htoken⟩
      fingerprint :=
        ⟨length_of_validFingerprint hfingerprint, ne_zero_of_validFingerprint hfingerprint⟩
      certificateDer := ⟨hnonempty, hder⟩ }

/-- A string behind its length. -/
def stringBytes (value : CString) : List UInt8 := UInt8.ofNat value.length :: value

/-- The bytes of a profile. -/
def profileBytes (profile : StoredProfile) : List UInt8 :=
  profile.profileVersion :: writeU32 profile.priority.toUInt32 ++
    writeU64 profile.lastSuccessUnixMs ++
    (stringBytes profile.profileId ++ (stringBytes profile.displayName ++
      (stringBytes profile.hubAddress ++ (stringBytes profile.token ++
        (stringBytes profile.certificateFingerprint ++
          ([UInt8.ofNat profile.certificateDer.length,
            UInt8.ofNat (profile.certificateDer.length / 256)] ++ profile.certificateDer))))))

theorem length_profileBytes (h : Storable profile) :
    (profileBytes profile).length ≤ 1419 := by
  have hid := h.profileId.1
  have hname := h.displayName.1
  have hhub := h.hubAddress.1
  have htoken := h.token.1
  have hfingerprint := h.fingerprint.1
  have hder := h.certificateDer.2
  unfold addressCapacity at hname hhub
  unfold certificateDerCapacity at hder
  simp only [profileBytes, stringBytes, List.length_append, List.length_cons, length_writeU32,
    length_writeU64, List.length_nil]
  omega

theorem appendString_eq {output : List UInt8} {valueCapacity : ℕ}
    (hvalue : value.length < valueCapacity) (hcapacity : valueCapacity ≤ 256)
    (hroom : output.length + (stringBytes value).length ≤ capacity) :
    appendString output capacity value valueCapacity = some (output ++ stringBytes value) := by
  rw [stringBytes, List.length_cons] at hroom
  rw [appendString, if_neg]
  · rfl
  · rintro (hno | hlarge | hfull)
    · rw [terminated, decide_eq_false_iff_not] at hno
      exact hno hvalue
    · omega
    · omega

/-- `encode_set` writes a valid profile if it fits. -/
theorem appendProfile_eq (h : Storable profile) {output : List UInt8} {capacity : ℕ}
    (hroom : output.length + (profileBytes profile).length ≤ capacity) :
    appendProfile capacity output profile = some (output ++ profileBytes profile) := by
  have hid := h.profileId.1
  have hname := h.displayName.1
  have hhub := h.hubAddress.1
  have htoken := h.token.1
  have hfingerprint := h.fingerprint.1
  have hder := h.certificateDer.2
  unfold addressCapacity at hname hhub
  unfold certificateDerCapacity at hder
  simp only [profileBytes, stringBytes, List.length_append, List.length_cons, length_writeU32,
    length_writeU64, List.length_nil] at hroom
  have hstring : ∀ {written : List UInt8} {value : CString} {valueCapacity : ℕ},
      value.length < valueCapacity → valueCapacity ≤ 256 →
      written.length + (value.length + 1) ≤ capacity →
      appendString written capacity value valueCapacity = some (written ++ stringBytes value) :=
    fun hvalue hle hroom => appendString_eq hvalue hle hroom
  unfold appendProfile
  rw [if_neg (by omega)]
  dsimp only
  simp only [Option.bind_eq_bind]
  rw [hstring (by rw [hid]; decide) (by decide) (by simp; omega), Option.bind_some,
    hstring (show _ < addressCapacity from hname) (by decide) (by simp [stringBytes]; omega), Option.bind_some,
    hstring (show _ < addressCapacity from hhub) (by decide) (by simp [stringBytes]; omega), Option.bind_some,
    hstring (by rw [htoken]; decide) (by decide) (by simp [stringBytes]; omega), Option.bind_some,
    hstring (by rw [hfingerprint]; decide) (by decide) (by simp [stringBytes]; omega),
    Option.bind_some, appendBytes, if_neg]
  · simp only [profileBytes, List.append_assoc]
  · rintro (hempty | hlarge | hfull)
    · exact h.certificateDer.1 hempty
    · omega
    · simp [stringBytes] at hfull
      omega

theorem drop_profileBytes (profile : StoredProfile) (rest : List UInt8) :
    (profileBytes profile ++ rest).drop 13 =
      stringBytes profile.profileId ++ (stringBytes profile.displayName ++
        (stringBytes profile.hubAddress ++ (stringBytes profile.token ++
          (stringBytes profile.certificateFingerprint ++
            ([UInt8.ofNat profile.certificateDer.length,
              UInt8.ofNat (profile.certificateDer.length / 256)] ++
                profile.certificateDer ++ rest))))) := by
  rw [profileBytes, List.append_assoc, List.drop_left' (by rfl)]
  simp only [List.append_assoc]

/-- `decode_set` takes back a valid profile. -/
theorem readProfile_append (h : Storable profile) (rest : List UInt8) :
    readProfile (profileBytes profile ++ rest) = some (profile, rest) := by
  have hid := h.profileId.1
  have htoken := h.token.1
  have hfingerprint := h.fingerprint.1
  have hpriority : readU32 (profileBytes profile ++ rest) 1 = profile.priority.toUInt32 := by
    rw [profileBytes, List.append_assoc, List.append_assoc]
    exact @readU32_append [profile.profileVersion] 1 rfl _ _
  have hsuccess : readU64 (profileBytes profile ++ rest) 5 = profile.lastSuccessUnixMs := by
    rw [profileBytes, List.append_assoc, List.append_assoc]
    exact readU64_append rfl _ _
  unfold readProfile
  rw [if_neg (by simp [profileBytes]; omega)]
  dsimp only
  have hversion : (profileBytes profile ++ rest).getD 0 0 = profile.profileVersion := rfl
  rw [hpriority, hsuccess, hversion, drop_profileBytes]
  simp only [Option.bind_eq_bind, stringBytes]
  rw [readString_append (by decide) (by rw [hid]; decide) h.profileId.2, Option.bind_some]
  dsimp only
  rw [readString_append (by decide) h.displayName.1 h.displayName.2, Option.bind_some]
  dsimp only
  rw [readString_append (by decide) h.hubAddress.1 h.hubAddress.2, Option.bind_some]
  dsimp only
  rw [readString_append (by decide) (by rw [htoken]; decide) h.token.2, Option.bind_some]
  dsimp only
  rw [readString_append (by decide) (by rw [hfingerprint]; decide) h.fingerprint.2,
    Option.bind_some]
  dsimp only
  rw [readBytes_append (by decide) h.certificateDer.1 h.certificateDer.2, Option.bind_some]
  simp

/-! ### Sets -/

/-- The bytes of a set. -/
def setBytes (set : StoredSet) : List UInt8 :=
  UInt8.ofNat set.profiles.length :: set.activeIndex :: set.profiles.flatMap profileBytes

theorem StoredSet.valid_iff (set : StoredSet) :
    set.valid = true ↔
      set.profiles.length ≤ maxProfiles ∧
      (if set.profiles.length = 0 then set.activeIndex = noActiveProfile
        else set.activeIndex.toNat < set.profiles.length) ∧
      (∀ profile ∈ set.profiles, profile.valid = true) ∧
      (set.profiles.map StoredProfile.profileId).Nodup := by
  rw [StoredSet.valid, Bool.and_eq_true, Bool.and_eq_true, Bool.and_eq_true, decide_eq_true_eq,
    decide_eq_true_eq, List.all_eq_true, and_assoc, and_assoc]
  by_cases hempty : set.profiles.length = 0
  · rw [if_pos hempty, if_pos hempty, beq_iff_eq]
  · rw [if_neg hempty, if_neg hempty, decide_eq_true_eq]

theorem appendProfiles_eq {profiles : List StoredProfile}
    (h : ∀ profile ∈ profiles, profile.valid = true) {output : List UInt8} {capacity : ℕ}
    (hroom : output.length + 1419 * profiles.length ≤ capacity) :
    profiles.foldlM (appendProfile capacity) output =
      some (output ++ profiles.flatMap profileBytes) := by
  induction profiles generalizing output with
  | nil => simp
  | cons profile profiles ih =>
    have hstorable := storable_of_valid (h profile List.mem_cons_self)
    have hlength := length_profileBytes hstorable
    rw [List.length_cons] at hroom
    rw [List.foldlM_cons, appendProfile_eq hstorable (by omega), Option.bind_eq_bind,
      Option.bind_some, ih (fun p hp => h p (List.mem_cons_of_mem _ hp)), List.flatMap_cons,
      List.append_assoc]
    rw [List.length_append]
    omega

variable {set : StoredSet}

theorem encodeSet_eq (h : set.valid = true) {capacity : ℕ} (hcapacity : 7097 ≤ capacity) :
    encodeSet set capacity = some (setBytes set) := by
  obtain ⟨hcount, -, hprofiles, -⟩ := set.valid_iff.mp h
  unfold maxProfiles at hcount
  rw [encodeSet, if_neg, appendProfiles_eq hprofiles]
  · rfl
  · simp only [List.length_cons, List.length_nil]
    omega
  · rintro (hno | hno)
    · omega
    · rw [h] at hno
      exact absurd hno.symm Bool.false_ne_true

theorem length_setBytes (h : set.valid = true) :
    2 ≤ (setBytes set).length ∧ (setBytes set).length ≤ 7097 := by
  obtain ⟨hcount, -, hprofiles, -⟩ := set.valid_iff.mp h
  have hlength : ∀ profiles : List StoredProfile, (∀ p ∈ profiles, p.valid = true) →
      (profiles.flatMap profileBytes).length ≤ 1419 * profiles.length := by
    intro profiles hvalid
    induction profiles with
    | nil => simp
    | cons profile profiles ih =>
      have hfirst := length_profileBytes (storable_of_valid (hvalid profile List.mem_cons_self))
      have hrest := ih fun p hp => hvalid p (List.mem_cons_of_mem _ hp)
      rw [List.flatMap_cons, List.length_append, List.length_cons]
      omega
  have hall := hlength set.profiles hprofiles
  unfold maxProfiles at hcount
  simp only [setBytes, List.length_cons]
  omega

theorem readProfiles_append {profiles : List StoredProfile}
    (h : ∀ profile ∈ profiles, profile.valid = true) (rest : List UInt8) :
    readProfiles profiles.length (profiles.flatMap profileBytes ++ rest) =
      some (profiles, rest) := by
  induction profiles with
  | nil => rfl
  | cons profile profiles ih =>
    have hstorable := storable_of_valid (h profile List.mem_cons_self)
    rw [List.length_cons, readProfiles, List.flatMap_cons, List.append_assoc,
      readProfile_append hstorable]
    simp only [Option.bind_eq_bind, Option.bind_some]
    rw [ih fun p hp => h p (List.mem_cons_of_mem _ hp)]
    rfl

/-- **The codec takes back every valid set.** -/
theorem decodeSet_setBytes (h : set.valid = true) :
    decodeSet (setBytes set) = some set := by
  obtain ⟨hcount, -, hprofiles, -⟩ := set.valid_iff.mp h
  have hread := readProfiles_append hprofiles []
  rw [List.append_nil] at hread
  unfold maxProfiles at hcount
  have hsize : (UInt8.ofNat set.profiles.length).toNat = set.profiles.length := by
    rw [UInt8.toNat_ofNat']
    omega
  rw [setBytes, decodeSet, hsize, if_neg (by unfold maxProfiles; omega), hread]
  dsimp only
  rw [if_pos ⟨rfl, h⟩]

theorem valid_of_decodeSet {input : List UInt8} (h : decodeSet input = some set) :
    set.valid = true := by
  unfold decodeSet at h
  split at h
  · split_ifs at h
    split at h
    · exact absurd h (by simp)
    · dsimp only at h
      split_ifs at h with hvalid
      obtain rfl := Option.some.inj h
      exact hvalid.2
  · exact absurd h (by simp)

end RlcdDeck.CompanionProfiles
