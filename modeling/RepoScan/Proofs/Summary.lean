import Mathlib.Algebra.BigOperators.Group.List.Basic
import Mathlib.Algebra.GroupWithZero.Nat
import Mathlib.Data.Finset.Card
import Mathlib.Data.Int.Order.Basic
import Mathlib.Data.Prod.Lex
import RepoScan.Proofs.Ranking
import RepoScan.Proofs.Report

/-!
# What summaries count

A summary counts findings by severity and by kind, and lists the files with the highest scores.  Its
files come out of one loop, which keeps a tally for each file that was met.

* `sum_countP_key` : counted key by key, the items are as many as there are;
* `FileTally.ofFile` : what the findings say of a file, and `foldl_recordAll` : **the loop ends with
  this for each file**, in the order in which the files are first met;
* `FileTally.IsTopOf` : files by descending score and count, and none left out that ranks higher;
* `IsSummaryOf`, `isSummaryOf_toEntries` : **what the entries of a summary tell**.
-/

namespace RepoScan

/-! ### Counting by key -/

/-- Items that each have one of the keys are as many as the counts for the keys add up to. -/
theorem sum_countP_key {α κ : Type} [DecidableEq κ] (key : α → κ) {ks : List κ} (hks : ks.Nodup)
    {xs : List α} (h : ∀ a ∈ xs, key a ∈ ks) :
    (ks.map fun k => xs.countP (key · = k)).sum = xs.length := by
  induction xs with
  | nil => simp
  | cons a xs ih =>
    obtain ⟨ha, hxs⟩ := List.forall_mem_cons.mp h
    have one : (ks.map fun k => if key a = k then 1 else 0).sum = 1 := by
      rw [List.sum_map_eq_nsmul_single (key a) _ fun k hk _ => if_neg hk.symm,
        List.count_eq_one_of_mem hks ha, if_pos rfl]
      rfl
    simp only [List.countP_cons, decide_eq_true_eq, List.sum_map_add, ih hxs, one,
      List.length_cons]

namespace FileTally

variable {fs : List Finding} {f : Finding} {name : Text} {ts : List FileTally}

/-! ### Tallies -/

/-- What the findings say of a file: how many there are in it, and the highest of their scores. -/
def ofFile (fs : List Finding) (name : Text) : FileTally where
  name := name
  count := fs.countP (·.file = name)
  score := ((fs.filter (·.file = name)).map fun f => f.score.getD 0).foldl max 0

theorem ofFile_concat (fs : List Finding) (f : Finding) (name : Text) :
    ofFile (fs ++ [f]) name =
      if name = f.file then (ofFile fs name).record f else ofFile fs name := by
  split
  · rename_i h
    simp [ofFile, record, h]
  · rename_i h
    simp [ofFile, Ne.symm h]

theorem ofFile_of_notMem (h : name ∉ fs.map Finding.file) : ofFile fs name = ⟨name, 0, 0⟩ := by
  have other : ∀ f ∈ fs, ¬ f.file = name := fun f hf e => h (e ▸ List.mem_map_of_mem hf)
  have none : fs.filter (·.file = name) = [] := by simpa [List.filter_eq_nil_iff] using other
  rw [ofFile, none, List.countP_eq_length_filter, none]
  rfl

/-- The files of findings, in the order in which they are first met. -/
def filesOf (fs : List Finding) : List Text := (fs.map Finding.file).reverse.dedup.reverse

theorem mem_filesOf : name ∈ filesOf fs ↔ name ∈ fs.map Finding.file := by
  rw [filesOf, List.mem_reverse, List.mem_dedup, List.mem_reverse]

theorem nodup_filesOf (fs : List Finding) : (filesOf fs).Nodup :=
  List.nodup_reverse.mpr (List.nodup_dedup _)

theorem length_filesOf (fs : List Finding) :
    (filesOf fs).length = (fs.map Finding.file).toFinset.card := by
  rw [← List.toFinset_card_of_nodup (nodup_filesOf fs)]
  congr 1
  ext name
  rw [List.mem_toFinset, List.mem_toFinset, mem_filesOf]

theorem filesOf_concat (fs : List Finding) (f : Finding) :
    filesOf (fs ++ [f]) =
      if f.file ∈ filesOf fs then filesOf fs else filesOf fs ++ [f.file] := by
  have reversed : ((fs ++ [f]).map Finding.file).reverse =
      f.file :: (fs.map Finding.file).reverse := by simp
  split
  · rename_i h
    have met := List.mem_reverse.mpr (mem_filesOf.mp h)
    rw [filesOf, reversed, List.dedup_cons_of_mem met, filesOf]
  · rename_i h
    rw [filesOf, reversed, List.dedup_cons_of_notMem fun hm => h (mem_filesOf.mpr
      (List.mem_reverse.mp hm)), List.reverse_cons, filesOf]

/-- Where in the findings a file is first met. -/
def firstPlace (fs : List Finding) (name : Text) : Nat := (fs.map Finding.file).idxOf name

theorem pairwise_filesOf (fs : List Finding) :
    (filesOf fs).Pairwise (firstPlace fs · < firstPlace fs ·) := by
  induction fs using List.reverseRecOn with
  | nil => exact List.Pairwise.nil
  | append_singleton fs f ih =>
    -- the places of files that were met before stay the same
    have before {name : Text} (h : name ∈ filesOf fs) :
        firstPlace (fs ++ [f]) name = firstPlace fs name := by
      rw [firstPlace, List.map_append, List.idxOf_append_of_mem (mem_filesOf.mp h), firstPlace]
    have kept : (filesOf fs).Pairwise (firstPlace (fs ++ [f]) · < firstPlace (fs ++ [f]) ·) := by
      refine ih.imp_of_mem fun {a b} ha hb hab => ?_
      rwa [before ha, before hb]
    rw [filesOf_concat]
    split
    · exact kept
    · rename_i h
      refine List.pairwise_append.mpr ⟨kept, List.pairwise_singleton _ _, fun name hname x hx => ?_⟩
      obtain rfl := List.mem_singleton.mp hx
      rw [before hname, firstPlace, firstPlace, List.map_append,
        List.idxOf_append_of_notMem (mt mem_filesOf.mpr h)]
      exact Nat.lt_add_right _ (List.idxOf_lt_length_of_mem (mem_filesOf.mp hname))

/-! ### The loop over findings -/

theorem recordAll_of_notMem (h : f.file ∉ ts.map FileTally.name) :
    recordAll ts f = ts ++ [record ⟨f.file, 0, 0⟩ f] := by
  induction ts with
  | nil => rfl
  | cons t ts ih =>
    rw [List.map_cons, List.mem_cons, not_or] at h
    rw [recordAll, if_neg (Ne.symm h.1), ih h.2, List.cons_append]

theorem recordAll_of_mem (hts : (ts.map FileTally.name).Nodup)
    (h : f.file ∈ ts.map FileTally.name) :
    recordAll ts f = ts.map fun t => if t.name = f.file then t.record f else t := by
  induction ts with
  | nil => cases h
  | cons t ts ih =>
    obtain ⟨ht, hts⟩ := List.nodup_cons.mp hts
    rw [recordAll, List.map_cons]
    split
    · rename_i same
      have others : ∀ u ∈ ts, (if u.name = f.file then u.record f else u) = u := fun u hu =>
        if_neg fun (e : u.name = f.file) => ht (same.trans e.symm ▸ List.mem_map_of_mem hu)
      rw [List.map_congr_left others, List.map_id']
    · rename_i other
      rw [ih hts ((List.mem_cons.mp h).resolve_left (Ne.symm other))]

/-- The tallies for the files of findings. -/
def tallies (fs : List Finding) : List FileTally := (filesOf fs).map (ofFile fs)

theorem map_name_tallies (fs : List Finding) : (tallies fs).map FileTally.name = filesOf fs := by
  rw [tallies, List.map_map]
  exact List.map_id _

theorem eq_ofFile_of_mem_tallies {t : FileTally} (h : t ∈ tallies fs) :
    t.name ∈ fs.map Finding.file ∧ t = ofFile fs t.name := by
  obtain ⟨name, hname, rfl⟩ := List.mem_map.mp h
  exact ⟨mem_filesOf.mp hname, rfl⟩

theorem recordAll_tallies (fs : List Finding) (f : Finding) :
    recordAll (tallies fs) f = tallies (fs ++ [f]) := by
  by_cases h : f.file ∈ filesOf fs
  · rw [recordAll_of_mem (by rw [map_name_tallies]; exact nodup_filesOf fs)
      (by rwa [map_name_tallies]), tallies, List.map_map, tallies, filesOf_concat, if_pos h]
    exact List.map_congr_left fun name _ => (ofFile_concat fs f name).symm
  · have others : ∀ name ∈ filesOf fs, ofFile fs name = ofFile (fs ++ [f]) name := fun name hname =>
      ((ofFile_concat fs f name).trans (if_neg (ne_of_mem_of_not_mem hname h))).symm
    rw [recordAll_of_notMem (by rwa [map_name_tallies]), tallies, tallies, filesOf_concat, if_neg h,
      List.map_append, List.map_congr_left others, List.map_singleton, ofFile_concat, if_pos rfl,
      ofFile_of_notMem (mt mem_filesOf.mpr h)]

/-- **What the loop ends with**: what the findings say of each file, in the order in which the files
are first met. -/
theorem foldl_recordAll (fs : List Finding) : fs.foldl recordAll [] = tallies fs := by
  induction fs using List.reverseRecOn with
  | nil => rfl
  | append_singleton fs f ih => rw [List.foldl_concat, ih, recordAll_tallies]

/-! ### The files that are listed -/

/-- The score and the count, by which files are ranked. -/
def rank (t : FileTally) : Int ×ₗ Nat := toLex (t.score, t.count)

theorem ranksBy_rank : RanksBy rank ranksBefore := by
  intro a b
  simp only [ranksBefore, rank, Prod.Lex.toLex_le_toLex, Bool.or_eq_true, Bool.and_eq_true,
    decide_eq_true_eq]

/-- The one file ranks higher than the other, or as high and is met first. -/
def Precedes (fs : List Finding) (a b : FileTally) : Prop :=
  b.rank < a.rank ∨ b.rank = a.rank ∧ firstPlace fs a.name < firstPlace fs b.name

/-- The tallies of at most `top` of the files of findings, those that precede all others. -/
structure IsTopOf (ts : List FileTally) (fs : List Finding) (top : Nat) : Prop where
  length : ts.length = min top (fs.map Finding.file).toFinset.card
  nodup : (ts.map FileTally.name).Nodup
  tally : ∀ t ∈ ts, t.name ∈ fs.map Finding.file ∧ t = ofFile fs t.name
  ordered : ts.Pairwise (Precedes fs)
  omitted : ∀ t ∈ ts, ∀ name ∈ fs.map Finding.file, name ∉ ts.map FileTally.name →
    Precedes fs t (ofFile fs name)
  complete : (fs.map Finding.file).toFinset.card ≤ top → (ts.map FileTally.count).sum = fs.length

theorem pairwise_ranked (fs : List Finding) :
    ((tallies fs).mergeSort ranksBefore).Pairwise (Precedes fs) :=
  ranksBy_rank.pairwise_mergeSort_of_pairwise (List.pairwise_map.mpr (pairwise_filesOf fs))

theorem isTopOf_take (fs : List Finding) (top : Nat) :
    IsTopOf (((tallies fs).mergeSort ranksBefore).take top) fs top := by
  generalize hranked : (tallies fs).mergeSort ranksBefore = ranked
  have perm : ranked.Perm (tallies fs) := hranked ▸ List.mergeSort_perm _ _
  have names : (ranked.map FileTally.name).Perm (filesOf fs) :=
    map_name_tallies fs ▸ perm.map FileTally.name
  have length : ranked.length = (fs.map Finding.file).toFinset.card := by
    rw [perm.length_eq, tallies, List.length_map, length_filesOf]
  have ordered : ranked.Pairwise (Precedes fs) := hranked ▸ pairwise_ranked fs
  refine ⟨?_, ?_, ?_, ?_, ?_, ?_⟩
  · rw [List.length_take, length]
  · exact ((List.take_sublist top ranked).map _).nodup (names.nodup_iff.mpr (nodup_filesOf fs))
  · exact fun t ht => eq_ofFile_of_mem_tallies (perm.mem_iff.mp (List.mem_of_mem_take ht))
  · exact ordered.sublist (List.take_sublist top ranked)
  · intro t ht name hname hout
    -- what is left out stands after what is listed
    rw [← List.take_append_drop top ranked, List.pairwise_append] at ordered
    refine ordered.2.2 t ht _ ?_
    have listed : ofFile fs name ∈ ranked :=
      perm.mem_iff.mpr (List.mem_map_of_mem (mem_filesOf.mpr hname))
    rw [← List.take_append_drop top ranked, List.mem_append] at listed
    exact listed.resolve_left fun h => hout (List.mem_map_of_mem h)
  · intro hall
    rw [List.take_of_length_le (by omega), (perm.map FileTally.count).sum_eq, tallies, List.map_map]
    exact sum_countP_key Finding.file (nodup_filesOf fs)
      fun f hf => mem_filesOf.mpr (List.mem_map_of_mem hf)

end FileTally

/-! ### The entries of a summary -/

/-- What the entries of a summary tell: the findings are counted by severity and by kind, and at
most `top` files are listed. -/
structure IsSummaryOf (es : List (Value × Value)) (fs : List Finding) (top : Nat) : Prop where
  total : Value.lookup (.text "total") es = some (.int fs.length)
  bySeverity : ∀ s : Severity, Value.lookup (.text s.label) es =
    some (.int (fs.countP fun f => f.severity = s : Nat))
  severities : (Severity.all.map fun s => fs.countP fun f => f.severity = s).sum = fs.length
  byKind : Value.lookup (.text "byType") es = some (.map (FindingKind.all.map fun k =>
    (.text k.label, .int (fs.countP fun f => f.kind = k : Nat))))
  kinds : (FindingKind.all.map fun k => fs.countP fun f => f.kind = k).sum = fs.length
  topFiles : ∃ ts : List FileTally,
    Value.lookup (.text "top_files") es = some (.list (ts.map FileTally.toValue)) ∧
      FileTally.IsTopOf ts fs top

theorem Severity.mem_all (s : Severity) : s ∈ all := by
  cases s <;> decide

/-- **What a summary tells of the findings**, whatever the result that heads it: its counts add up,
and the files it lists are those with the highest scores and counts. -/
theorem isSummaryOf_toEntries (r : ScanResult) (fs : List Finding) (top : Nat) :
    IsSummaryOf ((Summary.of fs top).toEntries r) fs top := by
  have found {k : Text} {v : Value} (h : (.text k, v) ∈ (Summary.of fs top).toEntries r) :=
    (hasKeys_toEntries r fs top).lookup_of_mem h
  have listed : (Summary.of fs top).topFiles =
      ((FileTally.tallies fs).mergeSort FileTally.ranksBefore).take top := by
    rw [Summary.of, FileTally.foldl_recordAll, Text.slice_zero]
  refine ⟨found ?_, fun s => found ?_, ?_, found ?_, ?_, _, found ?_,
    listed ▸ FileTally.isTopOf_take fs top⟩
  · simp [Summary.toEntries, Summary.of]
  · exact List.mem_append_right _ (List.mem_map.mpr
      ⟨_, List.mem_map.mpr ⟨s, s.mem_reported, rfl⟩, rfl⟩)
  · exact sum_countP_key Finding.severity (by decide) fun f _ => f.severity.mem_all
  · simp [Summary.toEntries, Summary.of]
  · exact sum_countP_key Finding.kind (by decide) fun f _ => f.kind.mem_all
  · simp [Summary.toEntries]

end RepoScan
