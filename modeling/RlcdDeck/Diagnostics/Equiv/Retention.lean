import RlcdDeck.Diagnostics.Equiv.Conservation

/-!
# Retention

`enforceRetention` removes segments other than the active one until the size that is reserved fits
(`enforceRetention_wp`).  What every removal keeps, it keeps, whatever else happens in between.
-/

namespace RlcdDeck.Diagnostics

open Effects Program ProtectedFile

variable {config : Config} {rely : World → World → Prop} {I : World → Prop} {world : World}
  {reserve : ℕ} {preserve : Option Name}

/-- Every segment has a size that is allowed. -/
def Allowed (config : Config) (files : Directory) : Prop :=
  ∀ name contents, isTemporary name = false → files.lookup name = some contents →
    contents.length ≤ config.maximumSegmentBytes

/-- Where the loop stands: the segments it has passed are the active one, were removed, or fit. -/
structure Loop (config : Config) (reserve : ℕ) (preserve : Option Name) (files : Directory)
    (segments : List SegmentMeta) (total : ℕ) : Prop where
  bytes : total = segmentBytes files
  present : ∀ segment ∈ segments, isTemporary segment.name = false ∧
    ∃ contents, files.lookup segment.name = some contents ∧ contents.length = segment.size
  names : (segments.map SegmentMeta.name).Nodup
  left : (∀ name contents, isTemporary name = false → files.lookup name = some contents →
      preserve = some name ∨ name ∈ segments.map SegmentMeta.name) ∨
    total + reserve ≤ config.maximumBytes
  each : Allowed config files

namespace Loop

variable {files : Directory} {segment : SegmentMeta} {segments : List SegmentMeta} {total : ℕ}

theorem start (h : Scanned config files segments) :
    Loop config reserve preserve files segments (segments.map SegmentMeta.size).sum := by
  refine ⟨h.total, fun segment hmem => ?_, h.names, .inl fun name contents _ hlookup =>
    .inr (h.mem_of_lookup hlookup), fun name contents _ hlookup => ?_⟩
  · obtain ⟨contents, hlookup, hsize⟩ := h.mem hmem
    exact ⟨h.temporary (AList.mem_lookup_iff.mp hlookup), contents, hlookup, hsize⟩
  · exact (h.segment _ (AList.mem_lookup_iff.mp hlookup)).2

theorem skip (h : Loop config reserve preserve files (segment :: segments) total)
    (hkept : preserve = some segment.name ∨ total + reserve ≤ config.maximumBytes) :
    Loop config reserve preserve files segments total := by
  refine ⟨h.bytes, fun other hmem => h.present other (List.mem_cons_of_mem _ hmem),
    (List.nodup_cons.mp h.names).2, ?_, h.each⟩
  rcases hkept with hpreserve | hroom
  · rcases h.left with hleft | hroom
    · refine .inl fun name contents hname hlookup => ?_
      rcases hleft name contents hname hlookup with hactive | hmem
      · exact .inl hactive
      · rcases List.mem_cons.mp hmem with rfl | hmem
        · exact .inl hpreserve
        · exact .inr hmem
    · exact .inr hroom
  · exact .inr hroom

theorem erase (h : Loop config reserve preserve files (segment :: segments) total) :
    Loop config reserve preserve (files.erase segment.name) segments (total - segment.size) := by
  obtain ⟨htemporary, contents, hlookup, hsize⟩ := h.present segment List.mem_cons_self
  have hbytes := segmentBytes_erase htemporary hlookup
  have htotal := h.bytes
  have hnames := List.nodup_cons.mp h.names
  have herased : ∀ name contents, (files.erase segment.name).lookup name = some contents →
      name ≠ segment.name ∧ files.lookup name = some contents := by
    intro name contents hname
    have hne : name ≠ segment.name := by
      rintro rfl
      rw [AList.lookup_erase] at hname
      cases hname
    exact ⟨hne, (AList.lookup_erase_ne hne).symm.trans hname⟩
  refine ⟨by omega, fun other hmem => ?_, hnames.2, ?_, fun name contents hname hother => ?_⟩
  · obtain ⟨hother, contents, hlookup, hsize⟩ := h.present other (List.mem_cons_of_mem _ hmem)
    refine ⟨hother, contents, (AList.lookup_erase_ne ?_).trans hlookup, hsize⟩
    intro heq
    exact hnames.1 (heq ▸ List.mem_map_of_mem hmem)
  · rcases h.left with hleft | hroom
    · refine .inl fun name contents hname hother => ?_
      obtain ⟨hne, hother⟩ := herased name contents hother
      rcases hleft name contents hname hother with hactive | hmem
      · exact .inl hactive
      · exact .inr ((List.mem_cons.mp hmem).resolve_left hne)
    · exact .inr (by omega)
  · exact h.each name contents hname (herased name contents hother).2

theorem fits (h : Loop config reserve preserve files [] total) :
    Fits config reserve preserve files := by
  rcases h.left with hleft | hroom
  · left
    have hempty : ∀ name contents, isTemporary name = false → files.lookup name = some contents →
        preserve = some name := by
      intro name contents hname hlookup
      exact (hleft name contents hname hlookup).resolve_right List.not_mem_nil
    have hnil : ∀ files : Directory, (∀ name contents, isTemporary name = false →
        files.lookup name ≠ some contents) → segmentBytes files = 0 := by
      intro files hnone
      have hfiles : segmentFiles files = [] := by
        rw [List.eq_nil_iff_forall_not_mem]
        intro entry hmem
        obtain ⟨hname, hlookup⟩ := mem_segmentFiles.mp hmem
        exact hnone entry.1 entry.2 hname hlookup
      rw [segmentBytes, hfiles]
      rfl
    cases preserve with
    | none =>
      refine hnil files fun name contents hname hlookup => ?_
      exact absurd (hempty name contents hname hlookup) (by simp)
    | some path =>
      refine hnil (files.erase path) fun name contents hname hlookup => ?_
      by_cases hpath : name = path
      · rw [hpath, AList.lookup_erase] at hlookup
        cases hlookup
      · rw [AList.lookup_erase_ne hpath] at hlookup
        exact hpath (Option.some.inj (hempty name contents hname hlookup)).symm
  · rw [h.bytes] at hroom
    exact .inr hroom

end Loop

/-- What the others and the removals keep. -/
structure KeptBy (rely : World → World → Prop) (preserve : Option Name) (I : World → Prop) : Prop where
  stable : Stable rely I
  files : ∀ s t, rely s t → t.files = s.files
  remove : ∀ s name, I s → isTemporary name = false → preserve ≠ some name → I (s.remove name)

theorem removeSegments_wp (hkept : KeptBy rely preserve I) (cutoff : ℤ) (segments : List SegmentMeta) (total remaining : ℕ)
    (hI : I world) (hloop : Loop config reserve preserve world.files segments total) :
    (removeSegments config cutoff reserve preserve segments total remaining).wp
      (after rely (Step config))
      (fun out s => I s ∧ (out.isSome = true → Fits config reserve preserve s.files ∧
        Allowed config s.files)) I world := by
  induction segments generalizing total remaining world with
  | nil => exact wp_pure hI ⟨hI, fun _ => ⟨hloop.fits, hloop.each⟩⟩
  | cons segment segments ih =>
    unfold removeSegments
    split
    next hpreserve => exact ih total remaining hI (hloop.skip (.inl hpreserve))
    next hpreserve =>
      split
      next hroom => exact ih total remaining hI (hloop.skip (.inr hroom.2))
      · have hP : Stable rely fun s => I s ∧
            Loop config reserve preserve s.files (segment :: segments) total := by
          intro s t hs hrely
          exact ⟨hkept.stable s t hs.1 hrely, (hkept.files s t hrely).symm ▸ hs.2⟩
        refine wp_perform_stable hP (fun _ hs => hs.1) ⟨hI, hloop⟩ ?_
        rintro s removed t ⟨hs, hloop⟩ hstep
        cases hstep with
        | removed =>
          have ht := hkept.remove s segment.name hs (hloop.present segment List.mem_cons_self).1 hpreserve
          exact ih _ _ ht hloop.erase
        | notRemoved => exact wp_pure hs ⟨hs, fun hfalse => by cases hfalse⟩

/-- **Retention**: what has succeeded has left room. -/
theorem enforceRetention_wp (hkept : KeptBy rely preserve I) (now : Reading) (hI : I world) :
    (enforceRetention config now reserve preserve).wp (after rely (Step config))
      (fun ok s => I s ∧ (ok = true → Fits config reserve preserve s.files ∧
        Allowed config s.files)) I world := by
  refine wp_perform_stable hkept.stable (fun _ hs => hs) hI ?_
  rintro s scanned t hs hstep
  cases hstep with
  | notScanned => exact wp_pure hs ⟨hs, fun hfalse => by cases hfalse⟩
  | scanned hsegments =>
    have hloop : Loop config reserve preserve _ _ _ :=
      .start (scanned_of_segmentsLocked hsegments)
    refine wp_bind (wp_mono (removeSegments_wp hkept _ _ _ _ hs hloop)
      (fun _ h => h) ?_)
    rintro remaining t ⟨ht, hout⟩
    cases remaining with
    | none => exact wp_pure ht ⟨ht, fun hfalse => by cases hfalse⟩
    | some remaining => exact wp_pure ht ⟨ht, fun _ => hout rfl⟩

end RlcdDeck.Diagnostics
