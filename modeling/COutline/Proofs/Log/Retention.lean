import COutline.Log.Collector
import COutline.Proofs.Data.SortedMap

/-!
# What the log collector keeps

The collector groups errors and warnings by file and keeps each one until either its file holds
`maxLogEventsPerFile` events or all files together hold `logBufferSize`; from then on it only
counts.  Neither count ever shrinks, so once a file's event is dropped every later one of that
file is dropped too.  Over any sequence of recordings, therefore, the events kept for a file are
a prefix of the errors and warnings recorded for it, and the kept and the dropped together are
all of them (`recordAll_retention`).

Files are keyed by their components, so two spellings of one path (`a//b`, `a/./b`) share an
entry.  That needs the order of paths to be lawful: it is the lexicographic order of the
component lists, with components ordered by rank and names by their text.
-/

namespace COutline

/-! ## The order of paths -/

namespace PathPart

/-- The text of a name; the other parts have none. -/
def text : PathPart → String
  | name s => s
  | _ => ""

/-- Parts compare by rank first and, at equal rank, by their text. -/
theorem compare_eq_then (a b : PathPart) :
    compare a b = (compare a.rank b.rank).then (compare a.text b.text) := by
  cases a <;> cases b <;> simp only [rank, text, Std.ReflOrd.compare_self] <;> rfl

instance : Std.TransOrd PathPart := by
  have h : (compare : PathPart → PathPart → Ordering) =
      compareLex (compareOn rank) (compareOn text) :=
    funext fun a => funext fun b => compare_eq_then a b
  show Std.TransCmp compare
  rw [h]
  infer_instance

theorem compare_eq_eq_iff {a b : PathPart} : compare a b = .eq ↔ a = b := by
  rw [compare_eq_then, Ordering.then_eq_eq, Std.LawfulEqOrd.compare_eq_iff_eq,
    Std.LawfulEqOrd.compare_eq_iff_eq]
  cases a <;> cases b <;> simp [rank, text]

instance : Std.LawfulEqOrd PathPart where
  compare_self := compare_eq_eq_iff.2 rfl
  eq_of_compare := compare_eq_eq_iff.1

end PathPart

namespace SourcePath

/-- Component lists compare lexicographically. -/
theorem compareParts_eq (l₁ l₂ : List PathPart) :
    compareParts l₁ l₂ = compare l₁ l₂ := by
  induction l₁ generalizing l₂ with
  | nil => cases l₂ <;> rfl
  | cons a as ih =>
    cases l₂ with
    | nil => rfl
    | cons b bs =>
      rw [compareParts, List.compare_cons_cons, ← ih bs]
      cases compare a b <;> rfl

theorem compare_eq_compare_parts (a b : SourcePath) : compare a b = compare a.parts b.parts :=
  compareParts_eq a.parts b.parts

instance : Std.TransOrd SourcePath := by
  have h : (compare : SourcePath → SourcePath → Ordering) = compareOn parts :=
    funext fun a => funext fun b => compare_eq_compare_parts a b
  show Std.TransCmp compare
  rw [h]
  infer_instance

/-- Two paths are the same key exactly when they have the same components. -/
theorem compare_eq_eq_iff {a b : SourcePath} : compare a b = .eq ↔ a.parts = b.parts := by
  rw [compare_eq_compare_parts, Std.LawfulEqOrd.compare_eq_iff_eq]

/-- Whether two path texts name the same file: they have the same components. -/
def SameFile (q p : String) : Prop := (SourcePath.mk q).parts = (SourcePath.mk p).parts

instance (q p : String) : Decidable (SameFile q p) :=
  inferInstanceAs (Decidable (_ = _))

theorem sameFile_refl (p : String) : SameFile p p := rfl

theorem compare_mk_eq_eq_iff {q p : String} :
    compare (SourcePath.mk q) (SourcePath.mk p) = .eq ↔ SameFile q p :=
  compare_eq_eq_iff

end SourcePath

namespace Collector

open SourcePath

/-! ## Views of a collector -/

/-- Record the calls in order, starting from the empty collector. -/
def recordAll (calls : List (String × LogEvent)) : Collector :=
  calls.foldl (fun c call => c.record call.1 call.2) {}

/-- The events kept for the file at `path`, in the order recorded. -/
def keptAt (c : Collector) (path : String) : List LogEvent :=
  ((c.files.get? (SourcePath.mk path)).map (·.events)).getD []

/-- How many events of the file at `path` were counted but not kept. -/
def droppedAt (c : Collector) (path : String) : Nat :=
  ((c.files.get? (SourcePath.mk path)).map (·.dropped)).getD 0

/-- The events kept over all files. -/
def total (c : Collector) : Nat := SortedMap.sumOf (fun f => f.events.length) c.files.entries

/-- Whether `e` is an event the collector keeps: an error or a warning. -/
def Collectible (e : LogEvent) : Prop := e.level = .error ∨ e.level = .warning

instance (e : LogEvent) : Decidable (Collectible e) := inferInstanceAs (Decidable (_ ∨ _))

/-- The errors and warnings among `calls` recorded for the file at `path`, in order. -/
def collectibleAt (calls : List (String × LogEvent)) (path : String) : List LogEvent :=
  (calls.filter fun call => decide (Collectible call.2 ∧ SameFile call.1 path)).map Prod.snd

theorem collectible_iff (e : LogEvent) : (e.isError || e.isWarning) = true ↔ Collectible e := by
  cases h : e.level <;> simp [LogEvent.isError, LogEvent.isWarning, Collectible, h]

/-- Whether an error or warning of `path` is kept: its file and all files together are below
    their limits. -/
def Room (c : Collector) (path : String) : Prop :=
  (c.keptAt path).length < Limits.standard.maxLogEventsPerFile ∧
    c.kept < Limits.standard.logBufferSize

instance (c : Collector) (path : String) : Decidable (c.Room path) :=
  inferInstanceAs (Decidable (_ ∧ _))

section Views

variable {c : Collector} {p : String}

theorem collectibleAt_congr (calls : List (String × LogEvent)) {q : String} (h : SameFile q p) :
    collectibleAt calls q = collectibleAt calls p := by
  unfold collectibleAt
  congr 1
  refine List.filter_congr fun call _ => decide_eq_decide.2 (and_congr_right fun _ => ?_)
  exact ⟨fun h' => Eq.trans h' h, fun h' => Eq.trans h' h.symm⟩

/-- After the entry of `p` is set to `fe`, the files that are `p` show `fe` and the others stay. -/
theorem keptAt_insert (fe : FileEvents) (c' : Collector)
    (hc' : c'.files = c.files.insert (SourcePath.mk p) fe) (q : String) :
    c'.keptAt q = if SameFile q p then fe.events else c.keptAt q := by
  rw [keptAt, hc', SortedMap.get?_insert_of_trans]
  by_cases h : SameFile q p
  · rw [if_pos (compare_mk_eq_eq_iff.2 h), if_pos h]
    rfl
  · rw [if_neg (mt compare_mk_eq_eq_iff.1 h), if_neg h]
    rfl

theorem droppedAt_insert (fe : FileEvents) (c' : Collector)
    (hc' : c'.files = c.files.insert (SourcePath.mk p) fe) (q : String) :
    c'.droppedAt q = if SameFile q p then fe.dropped else c.droppedAt q := by
  rw [droppedAt, hc', SortedMap.get?_insert_of_trans]
  by_cases h : SameFile q p
  · rw [if_pos (compare_mk_eq_eq_iff.2 h), if_pos h]
    rfl
  · rw [if_neg (mt compare_mk_eq_eq_iff.1 h), if_neg h]
    rfl

/-- Setting the entry of `p` in sorted files moves the total by the change of that file's count. -/
theorem total_insert (hs : SortedMap.Sorted c.files.entries) (fe : FileEvents) (c' : Collector)
    (hc' : c'.files = c.files.insert (SourcePath.mk p) fe) :
    c'.total + (c.keptAt p).length = c.total + fe.events.length := by
  have h := SortedMap.sumOf_insertEntry (fun f : FileEvents => f.events.length) hs
    (SourcePath.mk p) fe
  have hold : ((SortedMap.entryOf? (SourcePath.mk p) c.files.entries).map
      fun e => e.2.events.length).getD 0 = (c.keptAt p).length := by
    unfold keptAt SortedMap.get?
    cases SortedMap.entryOf? (SourcePath.mk p) c.files.entries <;> rfl
  rw [hold] at h
  rw [total, total, hc']
  exact h

end Views

/-! ## One recording -/

section Record

variable (c : Collector) (path : String) (e : LogEvent)

/-- The entry of `path` before a recording: what is kept and dropped for it so far. -/
theorem entry_getD :
    ((c.files.get? (SourcePath.mk path)).getD { path }).events = c.keptAt path ∧
      ((c.files.get? (SourcePath.mk path)).getD { path }).dropped = c.droppedAt path := by
  unfold keptAt droppedAt
  cases c.files.get? (SourcePath.mk path) <;> exact ⟨rfl, rfl⟩

/-- An event that is neither an error nor a warning changes nothing. -/
theorem record_of_not_collectible (h : ¬ Collectible e) : c.record path e = c := by
  rw [record, if_neg (mt (collectible_iff e).1 h)]

/-- An error or warning with room is kept: its file gains it and the count of kept events grows. -/
theorem record_of_room (he : Collectible e) (hr : c.Room path) :
    ∃ fe : FileEvents, (c.record path e).files = c.files.insert (SourcePath.mk path) fe ∧
      fe.events = c.keptAt path ++ [e] ∧ fe.dropped = c.droppedAt path ∧
      (c.record path e).kept = c.kept + 1 := by
  obtain ⟨hev, hdr⟩ := entry_getD c path
  have hcond : (((c.files.get? (SourcePath.mk path)).getD { path }).events.length <
      Limits.standard.maxLogEventsPerFile && c.kept < Limits.standard.logBufferSize) = true := by
    rw [hev]
    simp only [Bool.and_eq_true, decide_eq_true_eq]
    exact hr
  rw [record, if_pos ((collectible_iff e).2 he)]
  dsimp only
  rw [if_pos hcond]
  exact ⟨_, rfl, by rw [hev], hdr, rfl⟩

/-- An error or warning without room is only counted as dropped for its file. -/
theorem record_of_no_room (he : Collectible e) (hr : ¬ c.Room path) :
    ∃ fe : FileEvents, (c.record path e).files = c.files.insert (SourcePath.mk path) fe ∧
      fe.events = c.keptAt path ∧ fe.dropped = c.droppedAt path + 1 ∧
      (c.record path e).kept = c.kept := by
  obtain ⟨hev, hdr⟩ := entry_getD c path
  have hcond : ¬ (((c.files.get? (SourcePath.mk path)).getD { path }).events.length <
      Limits.standard.maxLogEventsPerFile && c.kept < Limits.standard.logBufferSize) = true := by
    rw [hev]
    simpa [Room] using hr
  rw [record, if_pos ((collectible_iff e).2 he)]
  dsimp only
  rw [if_neg hcond]
  exact ⟨_, rfl, hev, by rw [hdr], rfl⟩

end Record

/-! ## Whole runs -/

/-- What the collector holds after the recordings `calls`: its files in key order, the count
    of kept events is their total and within the buffer, no file holds more than its limit, and
    for each file the kept events are a prefix of its errors and warnings, the kept and the
    dropped are all of them, and a drop means the file or the buffer was full. -/
structure Accounts (calls : List (String × LogEvent)) (c : Collector) : Prop where
  sorted : SortedMap.Sorted c.files.entries
  kept_eq : c.kept = c.total
  kept_le : c.kept ≤ Limits.standard.logBufferSize
  perFile : ∀ q, (c.keptAt q).length ≤ Limits.standard.maxLogEventsPerFile
  isPrefix : ∀ q, c.keptAt q <+: collectibleAt calls q
  count : ∀ q, (c.keptAt q).length + c.droppedAt q = (collectibleAt calls q).length
  full : ∀ q, 0 < c.droppedAt q →
    Limits.standard.maxLogEventsPerFile ≤ (c.keptAt q).length ∨
      Limits.standard.logBufferSize ≤ c.kept

theorem collectibleAt_snoc (calls : List (String × LogEvent)) (path q : String) (e : LogEvent) :
    collectibleAt (calls ++ [(path, e)]) q =
      collectibleAt calls q ++ if Collectible e ∧ SameFile path q then [e] else [] := by
  unfold collectibleAt
  rw [List.filter_append, List.map_append]
  by_cases h : Collectible e ∧ SameFile path q <;> simp [h]

namespace Accounts

theorem empty : Accounts [] ({} : Collector) where
  sorted := SortedMap.sorted_empty
  kept_eq := rfl
  kept_le := by decide
  perFile _ := Nat.zero_le _
  isPrefix _ := List.nil_prefix
  count _ := rfl
  full _ h := absurd h (Nat.lt_irrefl 0)

variable {calls : List (String × LogEvent)} {c : Collector} {path : String} {e : LogEvent}

/-- Recording an event that is neither an error nor a warning keeps the accounts. -/
theorem skip (h : Accounts calls c) (he : ¬ Collectible e) :
    Accounts (calls ++ [(path, e)]) (c.record path e) := by
  rw [record_of_not_collectible c path e he]
  have hcol : ∀ q, collectibleAt (calls ++ [(path, e)]) q = collectibleAt calls q := fun q => by
    rw [collectibleAt_snoc, if_neg fun h' => he h'.1, List.append_nil]
  exact ⟨h.sorted, h.kept_eq, h.kept_le, h.perFile, fun q => hcol q ▸ h.isPrefix q,
    fun q => hcol q ▸ h.count q, h.full⟩

/-- Keeping an error or warning with room keeps the accounts. -/
theorem keep (h : Accounts calls c) (he : Collectible e) (hr : c.Room path) :
    Accounts (calls ++ [(path, e)]) (c.record path e) := by
  obtain ⟨fe, hfiles, hev, hdr, hkept⟩ := record_of_room c path e he hr
  have hk := keptAt_insert fe _ hfiles
  have hd := droppedAt_insert fe _ hfiles
  have htot := total_insert h.sorted fe _ hfiles
  -- with room, nothing of this file was dropped, so all its errors and warnings are kept
  have hnodrop : c.droppedAt path = 0 := by
    rcases Nat.eq_zero_or_pos (c.droppedAt path) with h0 | hpos
    · exact h0
    rcases h.full path hpos with hfull | hfull
    · exact absurd hr.1 (Nat.not_lt.2 hfull)
    · exact absurd hr.2 (Nat.not_lt.2 hfull)
  have hall : c.keptAt path = collectibleAt calls path :=
    (h.isPrefix path).eq_of_length (by have := h.count path; omega)
  refine ⟨?_, ?_, ?_, fun q => ?_, fun q => ?_, fun q => ?_, fun q hq => ?_⟩
  · rw [hfiles]
    exact h.sorted.insertEntry _ _
  · rw [hev, List.length_append, List.length_singleton] at htot
    rw [hkept, h.kept_eq]
    omega
  · rw [hkept]
    exact hr.2
  · rw [hk]
    split
    · rw [hev, List.length_append, List.length_singleton]
      exact hr.1
    · exact h.perFile q
  · rw [hk, collectibleAt_snoc]
    split
    · next hq =>
      -- `rewrite` tries no reflexivity, so the prefix is closed by `List.prefix_refl` alone
      rewrite [if_pos ⟨he, hq.symm⟩, hev, collectibleAt_congr calls hq, hall]
      exact List.prefix_refl _
    · next hq =>
      rw [if_neg fun h' => hq h'.2.symm, List.append_nil]
      exact h.isPrefix q
  · rw [hk, hd, collectibleAt_snoc]
    split
    · next hq =>
      rw [if_pos ⟨he, hq.symm⟩, hev, hdr, hnodrop, collectibleAt_congr calls hq, hall]
      simp
    · next hq =>
      rw [if_neg fun h' => hq h'.2.symm, List.append_nil]
      exact h.count q
  · rw [hd] at hq
    rw [hk, hkept]
    split at hq
    · next hs =>
      rw [hdr, hnodrop] at hq
      exact absurd hq (Nat.lt_irrefl 0)
    · next hs =>
      rw [if_neg hs]
      exact (h.full q hq).imp_right fun hb => by omega

/-- Counting an error or warning without room as dropped keeps the accounts. -/
theorem drop (h : Accounts calls c) (he : Collectible e) (hr : ¬ c.Room path) :
    Accounts (calls ++ [(path, e)]) (c.record path e) := by
  obtain ⟨fe, hfiles, hev, hdr, hkept⟩ := record_of_no_room c path e he hr
  have hk := keptAt_insert fe _ hfiles
  have hd := droppedAt_insert fe _ hfiles
  have htot := total_insert h.sorted fe _ hfiles
  refine ⟨?_, ?_, ?_, fun q => ?_, fun q => ?_, fun q => ?_, fun q hq => ?_⟩
  · rw [hfiles]
    exact h.sorted.insertEntry _ _
  · rw [hev] at htot
    rw [hkept, h.kept_eq]
    omega
  · rw [hkept]
    exact h.kept_le
  · rw [hk]
    split
    · rw [hev]
      exact h.perFile path
    · exact h.perFile q
  · rw [hk, collectibleAt_snoc]
    split
    · next hq =>
      rw [if_pos ⟨he, hq.symm⟩, hev, collectibleAt_congr calls hq]
      exact (h.isPrefix path).trans (List.prefix_append _ _)
    · next hq =>
      rw [if_neg fun h' => hq h'.2.symm, List.append_nil]
      exact h.isPrefix q
  · rw [hk, hd, collectibleAt_snoc]
    split
    · next hq =>
      rw [if_pos ⟨he, hq.symm⟩, hev, hdr, collectibleAt_congr calls hq, List.length_append,
        List.length_singleton, ← h.count path]
      omega
    · next hq =>
      rw [if_neg fun h' => hq h'.2.symm, List.append_nil]
      exact h.count q
  · rw [hk, hkept]
    rw [hd] at hq
    split
    · -- the file or the buffer is full: that is why this event was dropped
      rw [hev]
      by_cases hfile : (c.keptAt path).length < Limits.standard.maxLogEventsPerFile
      · exact .inr (Nat.not_lt.1 fun hbuf => hr ⟨hfile, hbuf⟩)
      · exact .inl (Nat.not_lt.1 hfile)
    · next hs =>
      rw [if_neg hs] at hq
      exact h.full q hq

/-- Every recording keeps the accounts. -/
theorem record (h : Accounts calls c) (path : String) (e : LogEvent) :
    Accounts (calls ++ [(path, e)]) (c.record path e) := by
  by_cases he : Collectible e
  · by_cases hr : c.Room path
    · exact h.keep he hr
    · exact h.drop he hr
  · exact h.skip he

end Accounts

/-- Recording `calls` after `pre` keeps the accounts. -/
theorem accounts_foldl (calls : List (String × LogEvent)) :
    ∀ (pre : List (String × LogEvent)) (c : Collector), Accounts pre c →
      Accounts (pre ++ calls) (calls.foldl (fun c call => c.record call.1 call.2) c) := by
  induction calls with
  | nil => intro pre c h; simpa using h
  | cons call calls ih =>
    intro pre c h
    have hstep := ih (pre ++ [call]) _ (h.record call.1 call.2)
    simpa using hstep

/-- The accounts hold after every sequence of recordings. -/
theorem accounts_recordAll (calls : List (String × LogEvent)) :
    Accounts calls (recordAll calls) := by
  have h := accounts_foldl calls [] {} Accounts.empty
  rw [List.nil_append] at h
  exact h

/-- The file of a recording changes as the room says, and every other file stays. -/
theorem record_views (c : Collector) (path : String) (e : LogEvent) (he : Collectible e) :
    (c.Room path → (c.record path e).keptAt path = c.keptAt path ++ [e] ∧
      (c.record path e).droppedAt path = c.droppedAt path) ∧
    (¬ c.Room path → (c.record path e).keptAt path = c.keptAt path ∧
      (c.record path e).droppedAt path = c.droppedAt path + 1) ∧
    (∀ q, ¬ SameFile q path → (c.record path e).keptAt q = c.keptAt q ∧
      (c.record path e).droppedAt q = c.droppedAt q) := by
  have hother : ∀ fe : FileEvents,
      (c.record path e).files = c.files.insert (SourcePath.mk path) fe →
      ∀ q, ¬ SameFile q path → (c.record path e).keptAt q = c.keptAt q ∧
        (c.record path e).droppedAt q = c.droppedAt q := fun fe hfiles q hq => by
    rw [keptAt_insert fe _ hfiles, droppedAt_insert fe _ hfiles, if_neg hq, if_neg hq]
    exact ⟨rfl, rfl⟩
  refine ⟨fun hr => ?_, fun hr => ?_, ?_⟩
  · obtain ⟨fe, hfiles, hev, hdr, -⟩ := record_of_room c path e he hr
    rw [keptAt_insert fe _ hfiles, droppedAt_insert fe _ hfiles, if_pos (sameFile_refl path),
      if_pos (sameFile_refl path)]
    exact ⟨hev, hdr⟩
  · obtain ⟨fe, hfiles, hev, hdr, -⟩ := record_of_no_room c path e he hr
    rw [keptAt_insert fe _ hfiles, droppedAt_insert fe _ hfiles, if_pos (sameFile_refl path),
      if_pos (sameFile_refl path)]
    exact ⟨hev, hdr⟩
  · by_cases hr : c.Room path
    · obtain ⟨fe, hfiles, -⟩ := record_of_room c path e he hr
      exact hother fe hfiles
    · obtain ⟨fe, hfiles, -⟩ := record_of_no_room c path e he hr
      exact hother fe hfiles

/-- Over any sequence of recordings: an event that is neither an error nor a warning changes
    nothing; for every file the events kept are, in order, a prefix of the errors and warnings
    recorded for it, and the kept and the dropped together are all of them; no file keeps more
    than `maxLogEventsPerFile` events and all files together keep at most `logBufferSize`; and
    the next error or warning is kept exactly when its file keeps fewer than
    `maxLogEventsPerFile` and all files together fewer than `logBufferSize`, and is otherwise
    only counted as dropped for its file, every other file staying as it was. -/
theorem recordAll_retention (calls : List (String × LogEvent)) :
    (∀ (c : Collector) (path : String) (e : LogEvent),
      e.level ≠ .error → e.level ≠ .warning → c.record path e = c) ∧
    (∀ path, (recordAll calls).keptAt path <+: collectibleAt calls path ∧
      ((recordAll calls).keptAt path).length + (recordAll calls).droppedAt path =
        (collectibleAt calls path).length) ∧
    (∀ path, ((recordAll calls).keptAt path).length ≤ Limits.standard.maxLogEventsPerFile) ∧
    (recordAll calls).total ≤ Limits.standard.logBufferSize ∧
    (∀ path e, Collectible e →
      (((recordAll calls).keptAt path).length < Limits.standard.maxLogEventsPerFile ∧
          (recordAll calls).total < Limits.standard.logBufferSize →
        ((recordAll calls).record path e).keptAt path = (recordAll calls).keptAt path ++ [e] ∧
        ((recordAll calls).record path e).droppedAt path = (recordAll calls).droppedAt path) ∧
      (¬ (((recordAll calls).keptAt path).length < Limits.standard.maxLogEventsPerFile ∧
          (recordAll calls).total < Limits.standard.logBufferSize) →
        ((recordAll calls).record path e).keptAt path = (recordAll calls).keptAt path ∧
        ((recordAll calls).record path e).droppedAt path =
          (recordAll calls).droppedAt path + 1) ∧
      (∀ q, ¬ SameFile q path →
        ((recordAll calls).record path e).keptAt q = (recordAll calls).keptAt q ∧
        ((recordAll calls).record path e).droppedAt q = (recordAll calls).droppedAt q)) := by
  have h := accounts_recordAll calls
  -- the count of kept events the recording checks is the total kept over all files
  have hroom : ∀ path, (recordAll calls).Room path ↔
      ((recordAll calls).keptAt path).length < Limits.standard.maxLogEventsPerFile ∧
        (recordAll calls).total < Limits.standard.logBufferSize := fun path => by
    rw [Room, h.kept_eq]
  refine ⟨fun c path e h₁ h₂ =>
      record_of_not_collectible c path e fun he => he.elim h₁ h₂,
    fun path => ⟨h.isPrefix path, h.count path⟩, h.perFile, h.kept_eq ▸ h.kept_le,
    fun path e he => ?_⟩
  obtain ⟨hkeep, hdrop, hframe⟩ := record_views (recordAll calls) path e he
  exact ⟨fun hr => hkeep ((hroom path).2 hr), fun hr => hdrop (mt (hroom path).1 hr), hframe⟩

end Collector

end COutline
