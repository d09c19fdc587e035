import Mathlib.Data.List.Perm.Lattice
import RlcdDeck.Collections.Entries
import RlcdDeck.Collections.Traverse
import RlcdDeck.Diagnostics.Segments
import RlcdDeck.ProtectedFile.Equiv.Replace

/-!
# The files of the directory

How large the segments are together, and what `segmentsLocked` has seen when it has succeeded
(`Scanned`).  Temporary files do not count: every other file is a segment.
-/

namespace RlcdDeck.Diagnostics

open ProtectedFile

variable {config : Config} {files : Directory} {path name : Name} {contents : List UInt8}

/-! ### Sizes -/

/-- The files that are not temporary. -/
def segmentFiles (files : Directory) : List (Sigma fun _ : Name => List UInt8) :=
  files.entries.filter fun entry => !isTemporary entry.1

/-- The size of all segments. -/
def segmentBytes (files : Directory) : ℕ :=
  ((segmentFiles files).map fun entry => entry.2.length).sum

theorem mem_segmentFiles {entry : Sigma fun _ : Name => List UInt8} :
    entry ∈ segmentFiles files ↔
      isTemporary entry.1 = false ∧ files.lookup entry.1 = some entry.2 := by
  obtain ⟨name, contents⟩ := entry
  rw [segmentFiles, List.mem_filter, Bool.not_eq_true', ← AList.mem_lookup_iff, Option.mem_def,
    and_comm]

theorem nodup_segmentFiles (files : Directory) : (segmentFiles files).Nodup :=
  files.nodupKeys.nodup.filter _

theorem segmentBytes_congr {files' : Directory}
    (h : ∀ name, isTemporary name = false → files'.lookup name = files.lookup name) :
    segmentBytes files' = segmentBytes files := by
  have hperm : (segmentFiles files').Perm (segmentFiles files) := by
    rw [List.perm_ext_iff_of_nodup (nodup_segmentFiles files') (nodup_segmentFiles files)]
    intro entry
    rw [mem_segmentFiles, mem_segmentFiles]
    exact and_congr_right fun htemporary => by rw [h entry.1 htemporary]
  exact (hperm.map _).sum_nat

theorem segmentBytes_erase (htemporary : isTemporary name = false)
    (hlookup : files.lookup name = some contents) :
    segmentBytes (files.erase name) + contents.length = segmentBytes files := by
  have hperm := ((Collections.entries_perm_erase hlookup).filter
    fun entry => !isTemporary entry.1).map fun entry => entry.2.length
  rw [List.filter_cons, htemporary] at hperm
  rw [segmentBytes, segmentBytes, segmentFiles, segmentFiles, hperm.sum_nat]
  simp only [Bool.not_false, if_true, List.map_cons, List.sum_cons]
  omega

theorem segmentBytes_erase_of_notMem (h : name ∉ files) :
    segmentBytes (files.erase name) = segmentBytes files := by
  refine segmentBytes_congr fun other _ => ?_
  by_cases hother : other = name
  · rw [hother, AList.lookup_erase, (AList.lookup_eq_none).mpr h]
  · exact AList.lookup_erase_ne hother

theorem segmentBytes_insert (htemporary : isTemporary name = false) (h : name ∉ files) :
    segmentBytes (files.insert name contents) = segmentBytes files + contents.length := by
  rw [segmentBytes, segmentFiles, AList.entries_insert_of_notMem h, List.filter_cons, htemporary,
    segmentBytes, segmentFiles]
  simp only [Bool.not_false, if_true, List.map_cons, List.sum_cons]
  omega

/-- The size of a file, if it is there. -/
def sizeOf (files : Directory) (name : Name) : ℕ := (files.lookup name).elim 0 List.length

/-- The size of the segments other than `path`. -/
def otherBytes (files : Directory) (path : Option Name) : ℕ :=
  path.elim (segmentBytes files) fun path => segmentBytes (files.erase path)

theorem segmentBytes_eq (htemporary : isTemporary path = false) :
    segmentBytes files = segmentBytes (files.erase path) + sizeOf files path := by
  rw [sizeOf]
  cases hlookup : files.lookup path with
  | none => rw [segmentBytes_erase_of_notMem (AList.lookup_eq_none.mp hlookup), Option.elim_none]; rfl
  | some contents => rw [Option.elim_some, segmentBytes_erase htemporary hlookup]

theorem segmentBytes_changed {files' : Directory} (htemporary : isTemporary path = false)
    (h : Changed files path contents files') :
    segmentBytes files' = segmentBytes (files.erase path) + contents.length := by
  rw [← segmentBytes_insert htemporary (by simp)]
  refine segmentBytes_congr fun name hname => ?_
  rw [h name hname]
  by_cases hpath : name = path
  · rw [if_pos hpath, hpath, AList.lookup_insert]
  · rw [if_neg hpath, AList.lookup_insert_ne hpath, AList.lookup_erase_ne hpath]

/-! ### Scans -/

/-- A file is a segment of a size that is allowed. -/
def IsSegment (config : Config) (entry : Sigma fun _ : Name => List UInt8) : Prop :=
  (parseSegmentName entry.1).isSome = true ∧ entry.2.length ≤ config.maximumSegmentBytes

/-- What a successful scan has seen. -/
structure Scanned (config : Config) (files : Directory) (segments : List SegmentMeta) : Prop where
  segment : ∀ entry ∈ files.entries, IsSegment config entry
  entries : (segments.map fun segment => (segment.name, segment.size)).Perm
    (files.entries.map fun entry => (entry.1, entry.2.length))

theorem parseSegmentName_temporary (h : (parseSegmentName name).isSome = true) :
    isTemporary name = false := by
  unfold parseSegmentName at h
  split at h
  · cases h
  next hfront =>
    rw [Bool.or_eq_true, not_or, Bool.not_eq_true', Bool.not_eq_false] at hfront
    cases name with
    | nil => rfl
    | cons first rest =>
      have hfirst : first = 0x73 := by
        have hhead := hfront.1
        rw [segmentPrefix, List.isPrefixOf_iff_prefix] at hhead
        obtain ⟨tail, htail⟩ := hhead
        exact (List.cons.inj htail).1.symm
      subst hfirst
      rfl

theorem scanned_of_segmentsLocked {segments : List SegmentMeta}
    (h : segmentsLocked config files = some segments) : Scanned config files segments := by
  unfold segmentsLocked at h
  split at h
  · cases h
  obtain ⟨metas, hmetas, rfl⟩ := Option.map_eq_some_iff.mp h
  have hmeta : ∀ entry segment, segmentMeta config entry = some segment →
      IsSegment config entry ∧ (segment.name, segment.size) = (entry.1, entry.2.length) := by
    intro entry segment heq
    obtain ⟨createdNs, hparse, heq⟩ := Option.bind_eq_some_iff.mp heq
    split at heq
    next hsize =>
      obtain rfl := Option.some.inj heq
      exact ⟨⟨by rw [hparse]; rfl, hsize⟩, rfl⟩
    · cases heq
  constructor
  · intro entry hmem
    obtain ⟨segment, -, heq⟩ := Collections.exists_of_mapM hmetas hmem
    exact (hmeta entry segment heq).1
  · have hsame : metas.map (fun segment => (segment.name, segment.size)) =
        files.entries.map fun entry => (entry.1, entry.2.length) :=
      Collections.map_of_mapM hmetas fun entry segment heq => (hmeta entry segment heq).2
    exact ((List.mergeSort_perm _ _).map _).trans (List.Perm.of_eq hsame)

namespace Scanned

variable {segments : List SegmentMeta}

theorem temporary (h : Scanned config files segments)
    {entry : Sigma fun _ : Name => List UInt8} (hmem : entry ∈ files.entries) :
    isTemporary entry.1 = false := parseSegmentName_temporary (h.segment entry hmem).1

theorem total (h : Scanned config files segments) :
    (segments.map SegmentMeta.size).sum = segmentBytes files := by
  have hfilter : segmentFiles files = files.entries := by
    rw [segmentFiles, List.filter_eq_self]
    intro entry hmem
    rw [h.temporary hmem]
    rfl
  have hsizes := h.entries.map Prod.snd
  rw [List.map_map, List.map_map] at hsizes
  rw [segmentBytes, hfilter]
  exact hsizes.sum_nat

theorem mem (h : Scanned config files segments) {segment : SegmentMeta} (hmem : segment ∈ segments) :
    ∃ contents, files.lookup segment.name = some contents ∧ contents.length = segment.size := by
  have hpair : (segment.name, segment.size) ∈
      files.entries.map fun entry => (entry.1, entry.2.length) :=
    h.entries.mem_iff.mp (List.mem_map_of_mem hmem)
  obtain ⟨entry, hentry, heq⟩ := List.mem_map.mp hpair
  obtain ⟨hname, hsize⟩ := Prod.mk.inj heq
  exact ⟨entry.2, by rw [← hname]; exact AList.mem_lookup_iff.mpr hentry, hsize⟩

theorem names (h : Scanned config files segments) : (segments.map SegmentMeta.name).Nodup := by
  have hnames := h.entries.map Prod.fst
  rw [List.map_map, List.map_map] at hnames
  exact hnames.nodup_iff.mpr files.nodupKeys

theorem mem_of_lookup (h : Scanned config files segments) (hlookup : files.lookup name = some contents) :
    name ∈ segments.map SegmentMeta.name := by
  have hnames := h.entries.map Prod.fst
  rw [List.map_map, List.map_map] at hnames
  exact hnames.mem_iff.mpr
    (List.mem_map_of_mem (f := Prod.fst ∘ _) (AList.mem_lookup_iff.mp hlookup))

end Scanned

end RlcdDeck.Diagnostics
