import RlcdDeck.CompanionProfiles.Equiv.Set
import RlcdDeck.TransactionStore.Store

/-!
# Which inputs are the bytes of their set

`decode_set` takes a string up to its first zero byte, and does not check that this is the whole
string.  An input that is accepted is what `encode_set` writes for its set exactly if none of its
strings contains a zero byte (`setBytes_eq_iff`).
-/

namespace RlcdDeck.CompanionProfiles

open Bytes
open TransactionStore (maxPayloadCapacity)

/-! ### Strings -/

/-- The bytes of the string at the front of the input, and what follows it. -/
def rawString (input : List UInt8) : List UInt8 × List UInt8 :=
  (input.tail.take (input.headD 0).toNat, input.tail.drop (input.headD 0).toNat)

theorem rawString_append {value : CString} (hlength : value.length < 256) (rest : List UInt8) :
    rawString (stringBytes value ++ rest) = (value, rest) := by
  have hsize : (UInt8.ofNat value.length).toNat = value.length := by
    rw [UInt8.toNat_ofNat']
    omega
  show ((value ++ rest).take (UInt8.ofNat value.length).toNat,
    (value ++ rest).drop (UInt8.ofNat value.length).toNat) = _
  rw [hsize, List.take_left, List.drop_left]

variable {input rest : List UInt8}

theorem rawString_of_readString {capacity : ℕ} {value : CString}
    (h : readString input capacity = some (value, rest)) :
    (rawString input).2 = rest ∧
    ((0 : UInt8) ∉ (rawString input).1 → input = stringBytes value ++ rest) := by
  cases input with
  | nil => cases h
  | cons size input =>
    rw [readString] at h
    split_ifs at h with hfits
    obtain ⟨hvalue, hrest⟩ := Prod.mk.inj (Option.some.inj h)
    refine ⟨hrest, fun hzero => ?_⟩
    change (0 : UInt8) ∉ input.take size.toNat at hzero
    have hall : ∀ byte ∈ input.take size.toNat, (byte != 0) = true := fun byte hbyte =>
      bne_iff_ne.mpr fun heq => hzero (heq ▸ hbyte)
    rw [List.takeWhile_eq_self_iff.mpr hall] at hvalue
    have hlength : value.length = size.toNat := by
      rw [← hvalue, List.length_take]
      omega
    rw [stringBytes, hlength, UInt8.ofNat_toNat, ← hvalue, ← hrest, List.cons_append,
      List.take_append_drop]

/-! ### Profiles -/

/-- The strings of the profile at the front of the input, and what follows it. -/
def rawProfile (input : List UInt8) : List (List UInt8) × List UInt8 :=
  let profileId := rawString (input.drop 13)
  let displayName := rawString profileId.2
  let hubAddress := rawString displayName.2
  let token := rawString hubAddress.2
  let certificateFingerprint := rawString token.2
  let certificateDer := certificateFingerprint.2
  ([profileId.1, displayName.1, hubAddress.1, token.1, certificateFingerprint.1],
    (certificateDer.drop 2).drop
      ((certificateDer.getD 0 0).toNat + (certificateDer.getD 1 0).toNat * 256))

/-- The strings of the first profiles of the input. -/
def rawStrings : ℕ → List UInt8 → List (List UInt8)
  | 0, _ => []
  | count + 1, input => (rawProfile input).1 ++ rawStrings count (rawProfile input).2

theorem rawProfile_append {profile : StoredProfile} (h : Storable profile) (rest : List UInt8) :
    rawProfile (profileBytes profile ++ rest) =
      ([profile.profileId, profile.displayName, profile.hubAddress, profile.token,
        profile.certificateFingerprint], rest) := by
  have hid := h.profileId.1
  have hname := h.displayName.1
  have hhub := h.hubAddress.1
  have htoken := h.token.1
  have hfingerprint := h.fingerprint.1
  have hder := h.certificateDer.2
  unfold addressCapacity at hname hhub
  unfold certificateDerCapacity at hder
  unfold rawProfile
  rw [drop_profileBytes, rawString_append (by omega)]
  dsimp only
  rw [rawString_append (by omega)]
  dsimp only
  rw [rawString_append (by omega)]
  dsimp only
  rw [rawString_append (by omega)]
  dsimp only
  rw [rawString_append (by omega)]
  dsimp only
  have hsize := read_lengthBytes (show profile.certificateDer.length < 65536 by omega)
  show (_, (profile.certificateDer ++ rest).drop ((UInt8.ofNat profile.certificateDer.length).toNat +
    (UInt8.ofNat (profile.certificateDer.length / 256)).toNat * 256)) = _
  rw [hsize, List.drop_left]

theorem readBytes_eq_some {value : List UInt8} {capacity : ℕ}
    (h : readBytes input capacity = some (value, rest)) :
    (input.drop 2).drop ((input.getD 0 0).toNat + (input.getD 1 0).toNat * 256) = rest ∧
      input = [UInt8.ofNat value.length, UInt8.ofNat (value.length / 256)] ++ value ++ rest := by
  match input with
  | [] => cases h
  | [_] => cases h
  | low :: high :: input =>
    rw [readBytes] at h
    split_ifs at h with hfits
    obtain ⟨hvalue, hrest⟩ := Prod.mk.inj (Option.some.inj h)
    have hlow := low.toNat_lt
    have hlength : value.length = low.toNat + high.toNat * 256 := by
      rw [← hvalue, List.length_take]
      omega
    have hfirst : UInt8.ofNat (low.toNat + high.toNat * 256) = low := by
      apply UInt8.toNat_inj.mp
      rw [UInt8.toNat_ofNat']
      omega
    have hsecond : UInt8.ofNat ((low.toNat + high.toNat * 256) / 256) = high := by
      apply UInt8.toNat_inj.mp
      rw [UInt8.toNat_ofNat']
      have hhigh := high.toNat_lt
      omega
    refine ⟨hrest, ?_⟩
    rw [hlength, hfirst, hsecond, ← hvalue, ← hrest, List.append_assoc, List.take_append_drop]
    rfl

theorem take_readProfile (h : 13 ≤ input.length) :
    input.take 13 = input.getD 0 0 :: writeU32 (readU32 input 1) ++ writeU64 (readU64 input 5) := by
  rw [writeU32_readU32 (by omega), writeU64_readU64 (by omega)]
  cases input with
  | nil => cases h
  | cons version input =>
    show version :: input.take (4 + 8) = version :: (input.take 4 ++ (input.drop 4).take 8)
    rw [List.take_add]

theorem rawProfile_of_readProfile {profile : StoredProfile}
    (h : readProfile input = some (profile, rest)) :
    (rawProfile input).2 = rest ∧
      ((∀ field ∈ (rawProfile input).1, (0 : UInt8) ∉ field) → input = profileBytes profile ++ rest) := by
  unfold readProfile at h
  split_ifs at h with hshort
  · cases h
  dsimp only at h
  obtain ⟨⟨profileId, input₁⟩, hid, h⟩ := Option.bind_eq_some_iff.mp h
  obtain ⟨⟨displayName, input₂⟩, hname, h⟩ := Option.bind_eq_some_iff.mp h
  obtain ⟨⟨hubAddress, input₃⟩, hhub, h⟩ := Option.bind_eq_some_iff.mp h
  obtain ⟨⟨token, input₄⟩, htoken, h⟩ := Option.bind_eq_some_iff.mp h
  obtain ⟨⟨fingerprint, input₅⟩, hfingerprint, h⟩ := Option.bind_eq_some_iff.mp h
  obtain ⟨⟨der, input₆⟩, hder, h⟩ := Option.bind_eq_some_iff.mp h
  obtain ⟨hprofile, hrest⟩ := Prod.mk.inj (Option.some.inj h)
  dsimp only at hname hhub htoken hfingerprint hder hprofile hrest
  obtain ⟨hid, hid'⟩ := rawString_of_readString hid
  obtain ⟨hname, hname'⟩ := rawString_of_readString hname
  obtain ⟨hhub, hhub'⟩ := rawString_of_readString hhub
  obtain ⟨htoken, htoken'⟩ := rawString_of_readString htoken
  obtain ⟨hfingerprint, hfingerprint'⟩ := rawString_of_readString hfingerprint
  obtain ⟨hder, hder'⟩ := readBytes_eq_some hder
  unfold rawProfile
  dsimp only
  rw [hid, hname, hhub, htoken, hfingerprint]
  refine ⟨hder.trans hrest, fun hzero => ?_⟩
  have hheader := take_readProfile (not_lt.mp hshort)
  rw [← List.take_append_drop 13 input, hheader, hid' (hzero _ (by simp)), hname' (hzero _ (by simp)),
    hhub' (hzero _ (by simp)), htoken' (hzero _ (by simp)), hfingerprint' (hzero _ (by simp)), hder',
    ← hprofile, ← hrest]
  simp [profileBytes]

/-! ### Sets -/

/-- The strings of the input of `decode_set`. -/
def inputStrings : List UInt8 → List (List UInt8)
  | count :: _ :: input => rawStrings count.toNat input
  | _ => []

theorem rawStrings_append {profiles : List StoredProfile} (h : ∀ profile ∈ profiles, Storable profile)
    (rest : List UInt8) :
    ∀ field ∈ rawStrings profiles.length (profiles.flatMap profileBytes ++ rest), (0 : UInt8) ∉ field := by
  induction profiles with
  | nil => simp [rawStrings]
  | cons profile profiles ih =>
    have hstorable := h profile List.mem_cons_self
    have hprofile := rawProfile_append hstorable (profiles.flatMap profileBytes ++ rest)
    intro field hfield
    rw [List.length_cons, rawStrings, List.flatMap_cons, List.append_assoc, hprofile, List.mem_append]
      at hfield
    rcases hfield with hfield | hfield
    · simp only [List.mem_cons, List.not_mem_nil, or_false] at hfield
      rcases hfield with rfl | rfl | rfl | rfl | rfl
      · exact fun hzero => hstorable.profileId.2 0 hzero rfl
      · exact fun hzero => hstorable.displayName.2 0 hzero rfl
      · exact fun hzero => hstorable.hubAddress.2 0 hzero rfl
      · exact fun hzero => hstorable.token.2 0 hzero rfl
      · exact fun hzero => hstorable.fingerprint.2 0 hzero rfl
    · exact ih (fun profile hprofile => h profile (List.mem_cons_of_mem _ hprofile)) field hfield

theorem eq_of_readProfiles {count : ℕ} {profiles : List StoredProfile}
    (h : readProfiles count input = some (profiles, rest)) :
    profiles.length = count ∧
      ((∀ field ∈ rawStrings count input, (0 : UInt8) ∉ field) →
        input = profiles.flatMap profileBytes ++ rest) := by
  induction count generalizing input profiles with
  | zero =>
    obtain ⟨rfl, rfl⟩ := Prod.mk.inj (Option.some.inj h)
    exact ⟨rfl, fun _ => rfl⟩
  | succ count ih =>
    obtain ⟨⟨profile, next⟩, hprofile, h⟩ := Option.bind_eq_some_iff.mp h
    obtain ⟨⟨others, last⟩, hothers, h⟩ := Option.bind_eq_some_iff.mp h
    obtain ⟨rfl, rfl⟩ := Prod.mk.inj (Option.some.inj h)
    obtain ⟨hnext, heq⟩ := rawProfile_of_readProfile hprofile
    obtain ⟨hlength, heq'⟩ := ih hothers
    refine ⟨by rw [List.length_cons, hlength], fun hzero => ?_⟩
    rw [rawStrings, hnext] at hzero
    rw [List.flatMap_cons, List.append_assoc,
      ← heq' fun field hfield => hzero field (List.mem_append_right _ hfield)]
    exact heq fun field hfield => hzero field (List.mem_append_left _ hfield)

theorem setBytes_eq_iff {set : StoredSet} (h : decodeSet input = some set) :
    setBytes set = input ↔ ∀ field ∈ inputStrings input, (0 : UInt8) ∉ field := by
  have hvalid := valid_of_decodeSet h
  obtain ⟨hcount, -, hprofiles, -⟩ := set.valid_iff.mp hvalid
  unfold maxProfiles at hcount
  constructor
  · rintro rfl
    have hsize : (UInt8.ofNat set.profiles.length).toNat = set.profiles.length := by
      rw [UInt8.toNat_ofNat']
      omega
    have hstrings := rawStrings_append (fun profile hprofile => storable_of_valid (hprofiles profile hprofile)) []
    rw [List.append_nil] at hstrings
    show ∀ field ∈ rawStrings (UInt8.ofNat set.profiles.length).toNat _, (0 : UInt8) ∉ field
    rwa [hsize]
  · intro hzero
    match input with
    | [] => cases h
    | [_] => cases h
    | count :: active :: input =>
      unfold decodeSet at h
      dsimp only at h
      split_ifs at h with hmany
      cases hread : readProfiles count.toNat input with
      | none =>
        rw [hread] at h
        cases h
      | some read =>
        obtain ⟨profiles, rest⟩ := read
        rw [hread] at h
        dsimp only at h
        split_ifs at h with hwhole
        obtain rfl := Option.some.inj h
        obtain ⟨hlength, heq⟩ := eq_of_readProfiles hread
        have hinput := heq hzero
        rw [hwhole.1, List.append_nil] at hinput
        show UInt8.ofNat profiles.length :: active :: profiles.flatMap profileBytes = _
        rw [hlength, UInt8.ofNat_toNat, ← hinput]

/-- The codec is right for every valid set.  An input that is accepted holds a valid set, and is what is
encoded for it exactly if no string of it contains a zero byte. -/
theorem codec_round_trip (set : StoredSet) (input : List UInt8) :
    (set.valid = true →
      ∃ payload, encodeSet set maxPayloadCapacity = some payload ∧
        payload.length ≤ maxPayloadCapacity ∧ decodeSet payload = some set) ∧
    (∀ decoded, decodeSet input = some decoded →
      (decoded.valid = true ∧ encodeSet decoded maxPayloadCapacity = some input ↔
        ∀ field ∈ inputStrings input, (0 : UInt8) ∉ field)) := by
  refine ⟨fun h => ⟨setBytes set, encodeSet_eq h (by decide), ?_, decodeSet_setBytes h⟩,
    fun decoded h => ?_⟩
  · exact (length_setBytes h).2.trans (by decide)
  · have hvalid := valid_of_decodeSet h
    rw [encodeSet_eq hvalid (by decide), Option.some.injEq, setBytes_eq_iff h]
    exact and_iff_right hvalid

/-- The bytes of a set of one profile, with these bytes for its name. -/
def bytesWithName (name : List UInt8) : List UInt8 :=
  let fingerprint := fingerprintPrefix ++ List.replicate 64 (ascii 'a')
  [1, 0, 1] ++ List.replicate 12 0 ++ stringBytes fingerprint ++ stringBytes name ++
    stringBytes ("a:1".toList.map ascii) ++ stringBytes (List.replicate 43 (ascii 'A')) ++
    stringBytes fingerprint ++ [1, 0, 0x30]

/-- A name is cut off at its zero byte. -/
theorem codec_round_trip_fails :
    ∃ set, decodeSet (bytesWithName [ascii 'n', 0, ascii 'm']) = some set ∧
      encodeSet set maxPayloadCapacity = some (bytesWithName [ascii 'n']) ∧
      bytesWithName [ascii 'n'] ≠ bytesWithName [ascii 'n', 0, ascii 'm'] := by
  refine ⟨⟨[{ profileVersion := 1
              profileId := fingerprintPrefix ++ List.replicate 64 (ascii 'a')
              displayName := [ascii 'n']
              hubAddress := "a:1".toList.map ascii
              token := List.replicate 43 (ascii 'A')
              certificateFingerprint := fingerprintPrefix ++ List.replicate 64 (ascii 'a')
              certificateDer := [0x30] }], 0⟩, ?_, ?_, ?_⟩
  · decide +kernel
  · decide +kernel
  · decide +kernel

end RlcdDeck.CompanionProfiles
