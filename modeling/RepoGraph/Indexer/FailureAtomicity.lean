import RepoGraph.Indexer.Orchestrator

/-! What a failed run leaves of its snapshot. Up to the flip to READY a run only asks for rows of other tables;
a refresh has three calls whose failure leaves the snapshot BUILDING. -/

namespace RepoGraph.Indexer

open Lib Lib.FaultM

variable {σ ε α : Type} {port : StoragePort σ ε} {env : IndexerEnv σ}

/-- The calls of a refresh between the creation of its snapshot and its pipeline. -/
def unguardedSites : List CallSite := [.copyForwardUnchangedFiles, .getFilesByRepo, .upsertCopiedFiles]

/-- Only calls that the pipeline makes have failed, and the rows of the snapshots are as before. -/
structure Quiet (w w' : World σ) : Prop where
  snapshots : w'.snapshots = w.snapshots
  events : ∃ new, w'.events = w.events ++ new ∧ ∀ e ∈ new, ∃ site, site ∉ unguardedSites ∧ e = .failed site

instance : Std.Refl (Quiet (σ := σ)) := ⟨fun _ => ⟨rfl, [], by simp, by simp⟩⟩

instance : IsTrans (World σ) Quiet := ⟨fun w w' w'' h h' => by
  obtain ⟨new, hnew, hfailed⟩ := h.events
  obtain ⟨new', hnew', hfailed'⟩ := h'.events
  refine ⟨h'.snapshots.trans h.snapshots, new ++ new', by rw [hnew', hnew, List.append_assoc], ?_⟩
  intro e he
  rcases List.mem_append.mp he with he | he
  · exact hfailed e he
  · exact hfailed' e he⟩

section Calls

lemma ends_callStore {onFailure : List StoreEvent} {f : Call σ ε α} {w w' : World σ}
    {r : Except (IndexError ε) α} : Ends (callStore onFailure f) w r w' ↔
      (∃ a rest, f w.rest = (.ok a, rest) ∧ r = .ok a ∧ w' = { w with rest }) ∨
      ∃ e rest, f w.rest = (.error e, rest) ∧ r = .error (.storage e) ∧
        w' = { w with rest, events := w.events ++ onFailure } := by
  rw [Ends, callStore]
  cases hf : f w.rest with
  | mk r₀ rest =>
    cases r₀ with
    | error e =>
      constructor
      · rintro ⟨⟩
        exact Or.inr ⟨e, rest, rfl, rfl, rfl⟩
      · rintro (⟨_, _, he, -, -⟩ | ⟨_, _, he, rfl, rfl⟩)
        · cases he
        · cases he
          rfl
    | ok a =>
      constructor
      · rintro ⟨⟩
        exact Or.inl ⟨a, rest, rfl, rfl, rfl⟩
      · rintro (⟨_, _, he, rfl, rfl⟩ | ⟨_, _, he, -, -⟩)
        · cases he
          rfl
        · cases he

lemma quiet_call {site : CallSite} (hsite : site ∉ unguardedSites)
    (f : Call σ ε α) : Keeps Quiet (call site f) := by
  intro w r w' h
  rcases ends_callStore.mp h with ⟨_, _, -, -, rfl⟩ | ⟨_, _, -, -, rfl⟩
  · exact ⟨rfl, [], by simp, by simp⟩
  · exact ⟨rfl, [.failed site], rfl, by simpa using hsite⟩

lemma quiet_breaks (event : IndexProgressEvent) : Keeps Quiet (breaks env event : IndexM σ ε Bool) := by
  intro w r w' h
  rw [Ends, breaks] at h
  cases hcb : env.onProgress with
  | none =>
    rw [hcb] at h
    cases h
    exact refl w
  | some cb =>
    rw [hcb] at h
    cases h
    exact ⟨rfl, [], by simp, by simp⟩

lemma quiet_emit (phase : IndexPhase) (current total : ℕ) (file : Option String) :
    Keeps Quiet (emit env phase current total file : IndexM σ ε Unit) := by
  refine .bind (quiet_breaks _) fun isBreak => ?_
  cases isBreak with
  | false => exact .pure ()
  | true => exact .throw IndexError.aborted

lemma quiet_initializeExtractors : Keeps Quiet (initializeExtractors env : IndexM σ ε Unit) := by
  refine .foldlM (fun _ extractor => ?_) env.extractors ()
  cases extractor.initialized with
  | error message => exact .throw _
  | ok _ => exact .pure ()

end Calls

section Pipeline

lemma quiet_extractFiles (repoUid snapUid now : String) (files : List FileInput) :
    Keeps Quiet (extractFiles env repoUid snapUid now files : IndexM σ ε Extracted) :=
  .foldlM (fun _ _ => .bind (quiet_emit _ _ _ _) fun _ => .pure _) _ _

lemma quiet_persistExtracted (rows : Extracted) : Keeps Quiet (persistExtracted port rows) := by
  refine .bind (quiet_call (by decide) _) fun _ => ?_
  refine .bind (quiet_call (by decide) _) fun _ => ?_
  refine .bind (.onlyIf (quiet_call (by decide) _)) fun _ => ?_
  refine .bind (.onlyIf (quiet_call (by decide) _)) fun _ => ?_
  exact .onlyIf (quiet_call (by decide) _)

lemma quiet_resolveBatches (snapUid now : String) (batchSize : ℕ) (ctx : ResolveContext) (rounds : ℕ)
    (cursor : Option String) (totals : ResolveTotals) :
    Keeps Quiet (resolveBatches port env snapUid now batchSize ctx rounds cursor totals) := by
  induction rounds generalizing cursor totals with
  | zero => exact .unfinished
  | succ rounds ih =>
    refine .bind (quiet_call (by decide) _) fun batch => ?_
    cases batch.getLast? with
    | none => exact .pure _
    | some last =>
      refine .bind (.onlyIf (quiet_call (by decide) _)) fun _ => ?_
      refine .bind (.onlyIf (quiet_call (by decide) _)) fun _ => ?_
      exact ih _ _

lemma quiet_readCopiedSignals (snapUid : String) (copiedFileUids : List String) (signals : List FileSignalRow) :
    Keeps Quiet (readCopiedSignals port snapUid copiedFileUids signals) :=
  .foldlM (fun _ _ => .bind (quiet_call (by decide) _) fun _ => .pure _) _ _

lemma quiet_readRustModDecls (snapUid : String) (declaredModules : List DeclaredModule) :
    Keeps Quiet (readRustModDecls port env snapUid declaredModules) := by
  rw [readRustModDecls]
  split
  · exact .pure _
  · exact .bind (quiet_call (by decide) _) fun _ => .pure _

lemma quiet_resolvePhase (rounds : ℕ) (options : IndexOptions) (repoUid snapUid now : String)
    (allFilePaths copiedFileUids : List String) (signals : List FileSignalRow) :
    Keeps Quiet (resolvePhase port env rounds options repoUid snapUid now allFilePaths
      copiedFileUids signals) := by
  refine .bind (quiet_emit _ _ _ _) fun _ => ?_
  refine .bind (quiet_call (by decide) _) fun _ => ?_
  refine .bind (quiet_readCopiedSignals _ _ _) fun _ => ?_
  refine .bind (quiet_readRustModDecls _ _) fun _ => ?_
  refine .bind (quiet_resolveBatches _ _ _ _ _ _ _) fun _ => ?_
  exact .pure _

lemma quiet_persistModuleEdges (moduleEdges : ModuleEdges) : Keeps Quiet (persistModuleEdges port moduleEdges) :=
  .onlyIf (.bind (quiet_call (by decide) _) fun _ => quiet_call (by decide) _)

lemma quiet_persistTotals (options : IndexOptions) (snapUid : String) (edgesTotal : ℕ) (totals : ResolveTotals)
    (rows : Extracted) : Keeps Quiet (persistTotals port env options snapUid edgesTotal totals rows) := by
  refine .bind (quiet_emit _ _ _ _) fun _ => ?_
  refine .bind (quiet_call (by decide) _) fun _ => ?_
  refine .bind (quiet_call (by decide) _) fun _ => ?_
  refine .bind (quiet_call (by decide) _) fun _ => ?_
  refine .bind (quiet_call (by decide) _) fun _ => ?_
  exact quiet_call (by decide) _

lemma quiet_buildSnapshot (rounds : ℕ) (options : IndexOptions) (repoUid snapUid now : String)
    (input : PipelineInput) : Keeps Quiet (buildSnapshot port env rounds options repoUid snapUid now input) := by
  refine .bind (quiet_emit _ _ _ _) fun _ => ?_
  refine .bind (quiet_extractFiles _ _ _ _) fun _ => ?_
  refine .bind (quiet_persistExtracted _) fun _ => ?_
  refine .bind (.onlyIf (quiet_call (by decide) _)) fun _ => ?_
  refine .bind (quiet_resolvePhase _ _ _ _ _ _ _ _) fun _ => ?_
  refine .bind (quiet_persistModuleEdges _) fun _ => ?_
  refine .bind (quiet_persistTotals _ _ _ _ _) fun _ => ?_
  exact .pure _

lemma quiet_indexContracts (repoUid snapUid now : String) (contractFiles : List ProtoFileInput)
    (result : IndexResult) : Keeps Quiet (indexContracts port env repoUid snapUid now contractFiles result) := by
  rw [indexContracts]
  split
  · exact .pure _
  · refine .bind (.attempt (quiet_call (by decide) _)) fun _ => ?_
    refine .bind (.attempt (quiet_call (by decide) _)) fun _ => ?_
    refine .bind (.attempt (quiet_call (by decide) _)) fun _ => ?_
    refine .bind ?_ fun _ => .pure _
    intro w r w' h
    obtain ⟨-, rfl⟩ := ends_modify.mp h
    exact ⟨rfl, [], by simp, by simp⟩

end Pipeline

section Lifecycle

/-- The states in which the snapshot of a run can be marked: it is the one row that was added, it was not set
READY, and no call outside of the pipeline has failed. -/
structure Pending (earlier : List Snapshot) (uid : String) (w : World σ) : Prop where
  row : ∃ row : Snapshot, row.snapshotUid = uid ∧ row.status = .building ∧ w.snapshots = earlier ++ [row]
  fresh : ∀ s ∈ earlier, s.snapshotUid ≠ uid
  created : ∀ u, .created u ∈ w.events ↔ u = uid
  unset : ∀ u status, .statusSet u status ∉ w.events
  unrefused : ∀ u, .statusRefused u .failed ∉ w.events

def Unfailed (w : World σ) : Prop := ∀ site ∈ unguardedSites, .failed site ∉ w.events

/-- The snapshots that a failed run has made are not READY and end as FAILED, provided their update to it was not
refused; the earlier ones are as they were. -/
structure FailureAtomic (earlier : List Snapshot) (w : World σ) : Prop where
  unready : ∀ uid, .created uid ∈ w.events → .statusSet uid .ready ∉ w.events ∧ w.statusOf uid ≠ some .ready
  failed : ∀ uid, .created uid ∈ w.events → .statusRefused uid .failed ∉ w.events → w.statusOf uid = some .failed
  earlier : ∀ s ∈ earlier, s ∈ w.snapshots

variable {earlier : List Snapshot} {uid : String} {w w' : World σ}

lemma Quiet.unfailed (h : Quiet w w') (hw : Unfailed w) : Unfailed w' := by
  obtain ⟨new, hnew, hfailed⟩ := h.events
  intro site hsite hmem
  rw [hnew, List.mem_append] at hmem
  rcases hmem with hmem | hmem
  · exact hw site hsite hmem
  · obtain ⟨site', hsite', he⟩ := hfailed _ hmem
    obtain rfl := StoreEvent.failed.inj he
    exact hsite' hsite

lemma Quiet.mem_events (h : Quiet w w') {event : StoreEvent} (hevent : ∀ site, event ≠ .failed site) :
    event ∈ w'.events ↔ event ∈ w.events := by
  obtain ⟨new, hnew, hfailed⟩ := h.events
  rw [hnew, List.mem_append, or_iff_left_iff_imp]
  intro hmem
  obtain ⟨site, -, he⟩ := hfailed _ hmem
  exact absurd he (hevent site)

lemma Pending.quiet (h : Quiet w w') (hw : Pending earlier uid w) : Pending earlier uid w' where
  row := by
    rw [h.snapshots]
    exact hw.row
  fresh := hw.fresh
  created u := by
    rw [h.mem_events (by simp), hw.created]
  unset u status := by
    rw [h.mem_events (by simp)]
    exact hw.unset u status
  unrefused u := by
    rw [h.mem_events (by simp)]
    exact hw.unrefused u

lemma statusOf_added {row : Snapshot} (hfresh : ∀ s ∈ earlier, s.snapshotUid ≠ uid) (hrow : row.snapshotUid = uid)
    (hw : w.snapshots = earlier ++ [row]) : w.statusOf uid = some row.status := by
  have hnone : earlier.find? (·.snapshotUid = uid) = none := by
    rw [List.find?_eq_none]
    intro s hs
    simpa using hfresh s hs
  rw [World.statusOf, hw, List.find?_append, hnone, Option.none_or, List.find?_singleton,
    if_pos (by simpa using hrow)]
  rfl

lemma Pending.statusOf (hw : Pending earlier uid w) : w.statusOf uid = some .building := by
  obtain ⟨row, hrow, hstatus, hsnapshots⟩ := hw.row
  rw [statusOf_added hw.fresh hrow hsnapshots, hstatus]

lemma Pending.not_failureAtomic (hw : Pending earlier uid w) : ¬FailureAtomic earlier w := by
  intro h
  have hfailed := h.failed uid ((hw.created uid).mpr rfl) (hw.unrefused uid)
  rw [hw.statusOf] at hfailed
  cases hfailed

lemma ends_updateSnapshotStatus {status : SnapshotStatus} {r : Except (IndexError ε) Unit}
    (h : Ends (port.updateSnapshotStatus uid status) w r w') :
    (r = .ok () ∧ w'.snapshots = (w.snapshots.map fun s => if s.snapshotUid = uid then { s with status } else s) ∧
        w'.events = w.events ++ [.statusSet uid status]) ∨
      ∃ e, r = .error e ∧ w'.snapshots = w.snapshots ∧ w'.events = w.events ++ [.statusRefused uid status] := by
  rcases ends_bind.mp h with ⟨e, hcall, rfl⟩ | ⟨_, u, hcall, hset⟩
  · rcases ends_callStore.mp hcall with ⟨_, _, -, he, -⟩ | ⟨_, _, -, -, rfl⟩
    · cases he
    · exact Or.inr ⟨e, rfl, rfl, rfl⟩
  · obtain ⟨rfl, rfl⟩ := ends_modify.mp hset
    rcases ends_callStore.mp hcall with ⟨_, _, -, -, rfl⟩ | ⟨_, _, -, he, -⟩
    · exact Or.inl ⟨rfl, rfl, rfl⟩
    · cases he

lemma map_status_added {row : Snapshot} {status : SnapshotStatus} (hfresh : ∀ s ∈ earlier, s.snapshotUid ≠ uid)
    (hrow : row.snapshotUid = uid) :
    ((earlier ++ [row]).map fun s => if s.snapshotUid = uid then { s with status } else s) =
      earlier ++ [{ row with status }] := by
  rw [List.map_append, List.map_singleton, if_pos hrow]
  congr 1
  refine (List.map_congr_left fun s hs => ?_).trans (List.map_id earlier)
  exact if_neg (hfresh s hs)

lemma Pending.note (hw : Pending earlier uid w) {event : StoreEvent} (hsnapshots : w'.snapshots = w.snapshots)
    (hevents : w'.events = w.events ++ [event]) (hcreated : ∀ u, event ≠ .created u)
    (hset : ∀ u status, event ≠ .statusSet u status) (hrefused : ∀ u, event ≠ .statusRefused u .failed) :
    Pending earlier uid w' where
  row := by
    rw [hsnapshots]
    exact hw.row
  fresh := hw.fresh
  created u := by
    rw [hevents, List.mem_append, List.mem_singleton, or_iff_left (hcreated u).symm]
    exact hw.created u
  unset u status := by
    rw [hevents, List.mem_append, List.mem_singleton, or_iff_left (hset u status).symm]
    exact hw.unset u status
  unrefused u := by
    rw [hevents, List.mem_append, List.mem_singleton, or_iff_left (hrefused u).symm]
    exact hw.unrefused u

lemma Unfailed.note (hw : Unfailed w) {event : StoreEvent} (hevents : w'.events = w.events ++ [event])
    (hevent : ∀ site ∈ unguardedSites, event ≠ .failed site) : Unfailed w' := by
  intro site hsite
  rw [hevents, List.mem_append, List.mem_singleton, or_iff_left (hevent site hsite).symm]
  exact hw site hsite

lemma Pending.markFailed (hw : Pending earlier uid w) (hunfailed : Unfailed w)
    {r : Except (IndexError ε) (Except (IndexError ε) Unit)}
    (h : Ends (attempt (port.updateSnapshotStatus uid .failed)) w r w') :
    FailureAtomic earlier w' ∧ Unfailed w' := by
  obtain ⟨r₀, h, -⟩ := ends_attempt.mp h
  obtain ⟨row, hrow, -, hsnapshots⟩ := hw.row
  rcases ends_updateSnapshotStatus h with ⟨-, hset, hevents⟩ | ⟨_, -, hset, hevents⟩
  · rw [hsnapshots, map_status_added hw.fresh hrow] at hset
    have hrow' : ({ row with status := .failed } : Snapshot).snapshotUid = uid := hrow
    have hstatus : w'.statusOf uid = some .failed := statusOf_added hw.fresh hrow' hset
    have hcreated : ∀ u, .created u ∈ w'.events → u = uid := by
      intro u hu
      exact (hw.created u).mp (by simpa [hevents] using hu)
    refine ⟨⟨?_, ?_, ?_⟩, hunfailed.note hevents (by simp)⟩
    · intro u hu
      obtain rfl := hcreated u hu
      exact ⟨by simpa [hevents] using hw.unset u .ready, by simp [hstatus]⟩
    · intro u hu _
      obtain rfl := hcreated u hu
      exact hstatus
    · intro s hs
      rw [hset]
      exact List.mem_append_left _ hs
  · have hstatus : w'.statusOf uid = some .building := by
      rw [World.statusOf, hset]
      exact hw.statusOf
    have hcreated : ∀ u, .created u ∈ w'.events → u = uid := by
      intro u hu
      exact (hw.created u).mp (by simpa [hevents] using hu)
    refine ⟨⟨?_, ?_, ?_⟩, hunfailed.note hevents (by simp)⟩
    · intro u hu
      obtain rfl := hcreated u hu
      exact ⟨by simpa [hevents] using hw.unset u .ready, by simp [hstatus]⟩
    · intro u hu hrefused
      obtain rfl := hcreated u hu
      exact absurd (by simp [hevents]) hrefused
    · intro s hs
      rw [hset, hsnapshots]
      exact List.mem_append_left _ hs

end Lifecycle

section Runs

variable {earlier : List Snapshot} {uid : String} {w w' : World σ} {rest : σ}

lemma Quiet.failureAtomic (h : Quiet ⟨earlier, rest, []⟩ w) : FailureAtomic earlier w ∧ Unfailed w := by
  have hcreated : ∀ u, .created u ∉ w.events := by
    intro u hu
    rw [h.mem_events (by simp)] at hu
    exact List.not_mem_nil hu
  refine ⟨⟨fun u hu => absurd hu (hcreated u), fun u hu => absurd hu (hcreated u), ?_⟩, h.unfailed ?_⟩
  · intro s hs
    rw [h.snapshots]
    exact hs
  · intro site _
    exact List.not_mem_nil

lemma ends_createSnapshot {input : CreateSnapshotInput} {r : Except (IndexError ε) Snapshot}
    (h : Ends (port.createSnapshot input) w r w') :
    (∃ e, r = .error e ∧ (∃ added, w'.snapshots = w.snapshots ++ added) ∧
        w'.events = w.events ++ [.failed .createSnapshot]) ∨
      ∃ row : Snapshot, r = .ok row ∧ row.status = .building ∧
        (∀ s ∈ w.snapshots, s.snapshotUid ≠ row.snapshotUid) ∧
        w'.snapshots = w.snapshots ++ [row] ∧ w'.events = w.events ++ [.created row.snapshotUid] := by
  rcases ends_bind.mp h with ⟨e, hcall, rfl⟩ | ⟨⟨snapshotUid, now⟩, u, hcall, h⟩
  · rcases ends_callStore.mp hcall with ⟨_, _, -, he, -⟩ | ⟨_, _, -, -, rfl⟩
    · cases he
    · exact Or.inl ⟨e, rfl, ⟨[], by simp⟩, rfl⟩
  rcases ends_callStore.mp hcall with ⟨_, _, -, -, rfl⟩ | ⟨_, _, -, he, -⟩
  swap
  · cases he
  rcases ends_bind.mp h with ⟨e, hget, -⟩ | ⟨_, _, hget, h⟩
  · cases (ends_get.mp hget).1
  obtain ⟨he, rfl⟩ := ends_get.mp hget
  obtain rfl := Except.ok.inj he
  split at h
  · rcases ends_bind.mp h with ⟨e, hnote, -⟩ | ⟨_, _, hnote, h⟩
    · cases (ends_modify.mp hnote).1
    · obtain ⟨-, rfl⟩ := ends_modify.mp hnote
      obtain ⟨rfl, rfl⟩ := ends_throw.mp h
      exact Or.inl ⟨_, rfl, ⟨[], by simp⟩, rfl⟩
  · next hnew =>
    rcases ends_bind.mp h with ⟨e, hset, -⟩ | ⟨_, _, hset, h⟩
    · cases (ends_set.mp hset).1
    obtain ⟨-, rfl⟩ := ends_set.mp hset
    rcases ends_bind.mp h with ⟨e, hread, rfl⟩ | ⟨_, u, hread, h⟩
    · rcases ends_callStore.mp hread with ⟨_, _, -, he, -⟩ | ⟨_, _, -, -, rfl⟩
      · cases he
      · exact Or.inl ⟨e, rfl, ⟨_, rfl⟩, rfl⟩
    rcases ends_callStore.mp hread with ⟨_, _, -, -, rfl⟩ | ⟨_, _, -, he, -⟩
    swap
    · cases he
    rcases ends_bind.mp h with ⟨e, hnote, -⟩ | ⟨_, _, hnote, h⟩
    · cases (ends_modify.mp hnote).1
    obtain ⟨-, rfl⟩ := ends_modify.mp hnote
    obtain ⟨rfl, rfl⟩ := ends_pure.mp h
    refine Or.inr ⟨_, rfl, rfl, ?_, rfl, rfl⟩
    intro s hs he
    exact hnew (List.mem_map.mpr ⟨s, hs, he⟩)

lemma createSnapshot_pending (hw : Quiet ⟨earlier, rest, []⟩ w) {input : CreateSnapshotInput}
    {r : Except (IndexError ε) Snapshot} (h : Ends (port.createSnapshot input) w r w') :
    (∃ e, r = .error e ∧ FailureAtomic earlier w' ∧ Unfailed w') ∨
      ∃ snapshot, r = .ok snapshot ∧ Pending earlier snapshot.snapshotUid w' ∧ Unfailed w' := by
  have hunfailed := hw.failureAtomic.2
  have hsnapshots : w.snapshots = earlier := hw.snapshots
  have hno : ∀ event, (∀ site, event ≠ .failed site) → event ∉ w.events := by
    intro event hevent hmem
    rw [hw.mem_events hevent] at hmem
    exact List.not_mem_nil hmem
  rcases ends_createSnapshot h with ⟨e, rfl, ⟨added, hadded⟩, hevents⟩ | ⟨row, rfl,
    hbuilding, hfresh, hadded, hevents⟩
  · have hcreated : ∀ u, .created u ∉ w'.events := by
      intro u
      simpa [hevents] using hno (.created u) (by simp)
    refine Or.inl ⟨e, rfl, ⟨fun u hu => absurd hu (hcreated u), fun u hu => absurd hu (hcreated u), ?_⟩, ?_⟩
    · intro s hs
      rw [hadded, hsnapshots]
      exact List.mem_append_left _ hs
    · refine hunfailed.note hevents fun site hsite he => ?_
      obtain rfl := StoreEvent.failed.inj he
      exact absurd hsite (by decide)
  · rw [hsnapshots] at hfresh hadded
    refine Or.inr ⟨row, rfl, ⟨⟨row, rfl, hbuilding, hadded⟩, hfresh, ?_, ?_, ?_⟩, hunfailed.note hevents (by simp)⟩
    · intro u
      rw [hevents, List.mem_append, List.mem_singleton, or_iff_right (hno (.created u) (by simp))]
      constructor
      · exact StoreEvent.created.inj
      · rintro rfl
        rfl
    · intro u status
      simpa [hevents] using hno (.statusSet u status) (by simp)
    · intro u
      simpa [hevents] using hno (.statusRefused u .failed) (by simp)

lemma neverFails_indexContracts (repoUid snapUid now : String) (contractFiles : List ProtoFileInput)
    (result : IndexResult) : NeverFails (indexContracts port env repoUid snapUid now contractFiles result) := by
  rw [indexContracts]
  split
  · exact .pure _
  · refine .bind .attempt fun _ => ?_
    refine .bind .attempt fun _ => ?_
    refine .bind .attempt fun _ => ?_
    exact .bind (.modify _) fun _ => .pure _

lemma runPipeline_pending {rounds : ℕ} {options : IndexOptions} {repoUid now : String} {input : PipelineInput}
    {r : Except (IndexError ε) IndexResult} (hw : Pending earlier uid w) (hunfailed : Unfailed w)
    (h : Ends (runPipeline port env rounds options repoUid uid now input) w r w') :
    (∃ result, r = .ok result ∧ Unfailed w') ∨ ∃ e, r = .error e ∧ Pending earlier uid w' ∧ Unfailed w' := by
  rcases ends_bind.mp h with ⟨e, hbuild, rfl⟩ | ⟨result, u, hbuild, h⟩
  · have hquiet := quiet_buildSnapshot _ _ _ _ _ _ hbuild
    exact Or.inr ⟨e, rfl, hw.quiet hquiet, hquiet.unfailed hunfailed⟩
  have hquiet := quiet_buildSnapshot _ _ _ _ _ _ hbuild
  have hu := hw.quiet hquiet
  have hunfailed' := hquiet.unfailed hunfailed
  rcases ends_bind.mp h with ⟨e, hready, rfl⟩ | ⟨_, v, hready, h⟩
  · rcases ends_updateSnapshotStatus hready with ⟨he, -, -⟩ | ⟨_, -, hsnapshots, hevents⟩
    · cases he
    · exact Or.inr ⟨e, rfl, hu.note hsnapshots hevents (by simp) (by simp) (by simp),
        hunfailed'.note hevents (by simp)⟩
  · obtain ⟨rfl, rfl⟩ := ends_pure.mp h
    rcases ends_updateSnapshotStatus hready with ⟨-, -, hevents⟩ | ⟨_, he, -, -⟩
    · exact Or.inl ⟨result, rfl, hunfailed'.note hevents (by simp)⟩
    · cases he

lemma guardedPipeline_ends {rounds : ℕ} {options : IndexOptions} {repoUid : String} {snapshot : Snapshot}
    {input : PipelineInput} {r : Except (IndexError ε) IndexResult} (hw : Pending earlier snapshot.snapshotUid w)
    (hunfailed : Unfailed w) (h : Ends (guardedPipeline port env rounds options repoUid snapshot input) w r w') :
    (∃ result, r = .ok result ∧ Unfailed w') ∨ ∃ e, r = .error e ∧ FailureAtomic earlier w' ∧ Unfailed w' := by
  rcases ends_bind.mp h with ⟨e, hrun, -⟩ | ⟨r₀, u, hrun, h⟩
  · obtain ⟨_, -, he⟩ := ends_attempt.mp hrun
    cases he
  obtain ⟨_, hrun, he⟩ := ends_attempt.mp hrun
  obtain rfl := Except.ok.inj he
  rcases runPipeline_pending hw hunfailed hrun with ⟨result, rfl, hu⟩ | ⟨e, rfl, hu, hunfailed'⟩
  · obtain ⟨rfl, rfl⟩ := ends_pure.mp h
    exact Or.inl ⟨result, rfl, hu⟩
  · rcases ends_bind.mp h with ⟨e', hmark, -⟩ | ⟨_, v, hmark, h⟩
    · obtain ⟨_, -, he⟩ := ends_attempt.mp hmark
      cases he
    · obtain ⟨rfl, rfl⟩ := ends_throw.mp h
      exact Or.inr ⟨e, rfl, hu.markFailed hunfailed' hmark⟩

structure Guarded (earlier : List Snapshot) (w' : World σ) (r : Except (IndexError ε) α) : Prop where
  atomic : ∀ e, r = .error e → FailureAtomic earlier w'
  unfailed : Unfailed w'

lemma Guarded.ok {a : α} (h : Unfailed w') : Guarded earlier w' (.ok a : Except (IndexError ε) α) where
  atomic _ he := by cases he
  unfailed := h

lemma Guarded.error {e : IndexError ε} (h : FailureAtomic earlier w' ∧ Unfailed w') :
    Guarded earlier w' (.error e : Except (IndexError ε) α) where
  atomic _ _ := h.1
  unfailed := h.2

lemma finish_guarded {rounds : ℕ} {options : IndexOptions} {repoUid : String} {snapshot : Snapshot}
    {input : PipelineInput} {contractFiles : List ProtoFileInput} {g : IndexResult → IndexResult}
    {r : Except (IndexError ε) IndexResult} (hw : Pending earlier snapshot.snapshotUid w) (hunfailed : Unfailed w)
    (h : Ends (guardedPipeline port env rounds options repoUid snapshot input >>= fun result =>
      indexContracts port env repoUid snapshot.snapshotUid snapshot.createdAt contractFiles (g result)) w r w') :
    Guarded earlier w' r := by
  rcases ends_bind.mp h with ⟨e, hrun, rfl⟩ | ⟨result, u, hrun, h⟩
  · rcases guardedPipeline_ends hw hunfailed hrun with ⟨_, he, -⟩ | ⟨_, -, hatomic, hunfailed'⟩
    · cases he
    · exact .error ⟨hatomic, hunfailed'⟩
  · rcases guardedPipeline_ends hw hunfailed hrun with ⟨_, -, hu⟩ | ⟨_, he, -, -⟩
    · obtain ⟨a, rfl⟩ := neverFails_indexContracts _ _ _ _ _ h
      exact .ok ((quiet_indexContracts _ _ _ _ _ h).unfailed hu)
    · cases he

lemma neverFails_breaks (event : IndexProgressEvent) : NeverFails (breaks env event : IndexM σ ε Bool) := by
  intro w r w' h
  rw [Ends, breaks] at h
  cases hcb : env.onProgress with
  | none =>
    rw [hcb] at h
    cases h
    exact ⟨_, rfl⟩
  | some cb =>
    rw [hcb] at h
    cases h
    exact ⟨_, rfl⟩

/-- What becomes of a pending snapshot over a stretch of its run: it is pending still, or marked with the end of
the run, or a call outside of the pipeline ends the run and leaves it. -/
inductive Standing (earlier : List Snapshot) (uid : String) (w' : World σ) : Except (IndexError ε) α → Prop
  | pending (a : α) (hw : Pending earlier uid w') (hunfailed : Unfailed w') : Standing earlier uid w' (.ok a)
  | marked (e : IndexError ε) (hatomic : FailureAtomic earlier w') (hunfailed : Unfailed w') :
    Standing earlier uid w' (.error e)
  | stranded (e : IndexError ε) (hw : Pending earlier uid w') (site : CallSite) (hsite : site ∈ unguardedSites)
    (hfailed : .failed site ∈ w'.events) : Standing earlier uid w' (.error e)

def Stretch (earlier : List Snapshot) (uid : String) (p : IndexM σ ε α) : Prop :=
  ∀ ⦃w r w'⦄, Pending earlier uid w → Unfailed w → Ends p w r w' → Standing earlier uid w' r

lemma Stretch.pure (a : α) : Stretch earlier uid (pure a : IndexM σ ε α) := by
  intro w r w' hw hunfailed h
  obtain ⟨rfl, rfl⟩ := ends_pure.mp h
  exact .pending a hw hunfailed

lemma Stretch.bind {β : Type} {p : IndexM σ ε α} {f : α → IndexM σ ε β} (hp : Stretch earlier uid p)
    (hf : ∀ a, Stretch earlier uid (f a)) : Stretch earlier uid (p >>= f) := by
  intro w r w' hw hunfailed h
  rcases ends_bind.mp h with ⟨e, hend, rfl⟩ | ⟨a, u, hend, hnext⟩
  · cases hp hw hunfailed hend with
    | marked _ hatomic hunfailed' => exact .marked e hatomic hunfailed'
    | stranded _ hw' site hsite hfailed => exact .stranded e hw' site hsite hfailed
  · cases hp hw hunfailed hend with
    | pending _ hu hunfailed' => exact hf a hu hunfailed' hnext

lemma stretch_call {site : CallSite} (hsite : site ∈ unguardedSites) (f : Call σ ε α) :
    Stretch earlier uid (call site f) := by
  intro w r w' hw hunfailed h
  rcases ends_callStore.mp h with ⟨a, _, -, rfl, rfl⟩ | ⟨e, _, -, rfl, rfl⟩
  · exact .pending a ⟨hw.row, hw.fresh, hw.created, hw.unset, hw.unrefused⟩ hunfailed
  · exact .stranded _ (hw.note rfl rfl (by simp) (by simp) (by simp)) site hsite (by simp)

lemma stretch_checkpointOrFail : Stretch earlier uid (checkpointOrFail port env uid) := by
  intro w r w' hw hunfailed h
  rcases ends_bind.mp h with ⟨e, hbreaks, -⟩ | ⟨isBreak, u, hbreaks, h⟩
  · obtain ⟨_, he⟩ := neverFails_breaks _ hbreaks
    cases he
  have hquiet := quiet_breaks _ hbreaks
  cases isBreak with
  | false =>
    obtain ⟨rfl, rfl⟩ := ends_pure.mp h
    exact .pending () (hw.quiet hquiet) (hquiet.unfailed hunfailed)
  | true =>
    rcases ends_bind.mp h with ⟨e, hmark, -⟩ | ⟨_, v, hmark, h⟩
    · obtain ⟨_, he⟩ := NeverFails.attempt hmark
      cases he
    · obtain ⟨rfl, rfl⟩ := ends_throw.mp h
      obtain ⟨hatomic, hunfailed'⟩ := (hw.quiet hquiet).markFailed (hquiet.unfailed hunfailed) hmark
      exact .marked _ hatomic hunfailed'

lemma stretch_copyForward (repoUid : String) (parent snapshot : Snapshot) (filesToCopy : List String) :
    Stretch earlier snapshot.snapshotUid (copyForward port env repoUid parent snapshot filesToCopy) := by
  refine .bind stretch_checkpointOrFail fun _ => ?_
  refine .bind (stretch_call (by decide) _) fun _ => ?_
  refine .bind stretch_checkpointOrFail fun _ => ?_
  refine .bind (stretch_call (by decide) _) fun _ => ?_
  refine .bind (stretch_call (by decide) _) fun _ => ?_
  exact .pure _

structure Stranded (earlier : List Snapshot) (w' : World σ) (r : Except (IndexError ε) α) : Prop where
  error : ∃ e, r = .error e
  pending : ∃ uid, Pending earlier uid w'
  failed : ∃ site ∈ unguardedSites, .failed site ∈ w'.events

lemma created_ends {β : Type} (hw : Quiet ⟨earlier, rest, []⟩ w) {input : CreateSnapshotInput}
    {f : Snapshot → IndexM σ ε β} {r : Except (IndexError ε) β}
    (h : Ends (do
      initializeExtractors env
      emit env .extracting 0 0 none
      let snapshot ← port.createSnapshot input
      f snapshot) w r w') :
    Guarded earlier w' r ∨ ∃ snapshot u, Pending earlier snapshot.snapshotUid u ∧ Unfailed u ∧
    Ends (f snapshot) u r w' := by
  rcases ends_bind.mp h with ⟨e, hinit, rfl⟩ | ⟨_, u, hinit, h⟩
  · exact Or.inl (.error (IsTrans.trans _ _ _ hw (quiet_initializeExtractors hinit)).failureAtomic)
  have hu := IsTrans.trans _ _ _ hw (quiet_initializeExtractors hinit)
  rcases ends_bind.mp h with ⟨e, hemit, rfl⟩ | ⟨_, v, hemit, h⟩
  · exact Or.inl (.error (IsTrans.trans _ _ _ hu (quiet_emit _ _ _ _ hemit)).failureAtomic)
  have hv := IsTrans.trans _ _ _ hu (quiet_emit _ _ _ _ hemit)
  rcases ends_bind.mp h with ⟨e, hcreate, rfl⟩ | ⟨snapshot, x, hcreate, h⟩
  · rcases createSnapshot_pending hv hcreate with ⟨_, -, hatomic⟩ | ⟨_, he, -, -⟩
    · exact Or.inl (.error hatomic)
    · cases he
  rcases createSnapshot_pending hv hcreate with ⟨_, he, -, -⟩ | ⟨_, he, hpending, hunfailed⟩
  · cases he
  obtain rfl := Except.ok.inj he
  exact Or.inr ⟨snapshot, x, hpending, hunfailed, h⟩

lemma indexRepo_guarded (hw : Quiet ⟨earlier, rest, []⟩ w) {rounds : ℕ} {options : IndexOptions} {repoUid : String}
    {files : List FileInput} {contractFiles : List ProtoFileInput} {r : Except (IndexError ε) IndexResult}
    (h : Ends (indexRepo port env rounds options repoUid files contractFiles) w r w') : Guarded earlier w' r := by
  rcases created_ends hw h with hguarded | ⟨snapshot, u, hpending, hunfailed, h⟩
  · exact hguarded
  · exact finish_guarded hpending hunfailed h

lemma refreshSnapshot_ends (hw : Quiet ⟨earlier, rest, []⟩ w) {rounds : ℕ}
    {options : IndexOptions} {repoUid : String}
    {currentFiles : List FileInput} {contractFiles : List ProtoFileInput} {parent : Snapshot}
    {plan : InvalidationPlan} {r : Except (IndexError ε) IndexResult}
    (h : Ends (refreshSnapshot port env rounds options repoUid currentFiles contractFiles parent plan) w r w') :
    Guarded earlier w' r ∨ Stranded earlier w' r := by
  rcases created_ends hw h with hguarded | ⟨snapshot, u, hpending, hunfailed, h⟩
  · exact Or.inl hguarded
  rcases ends_bind.mp h with ⟨e, hcopy, rfl⟩ | ⟨copyResult, v, hcopy, h⟩
  · cases stretch_copyForward _ _ _ _ hpending hunfailed hcopy with
    | marked _ hatomic hunfailed' => exact Or.inl (.error ⟨hatomic, hunfailed'⟩)
    | stranded _ hv site hsite hfailed => exact Or.inr ⟨⟨e, rfl⟩, ⟨_, hv⟩, site, hsite, hfailed⟩
  · cases stretch_copyForward _ _ _ _ hpending hunfailed hcopy with
    | pending _ hv hunfailed' => exact Or.inl (finish_guarded hv hunfailed' h)

lemma quiet_getLatestSnapshot (repoUid : String) : Keeps Quiet (port.getLatestSnapshot repoUid) := by
  refine .bind (quiet_call (by decide) _) fun _ => ?_
  exact .bind .get fun _ => .pure _

lemma refreshRepo_ends {rounds : ℕ} {options : IndexOptions} {repoUid : String} {currentFiles : List FileInput}
    {contractFiles : List ProtoFileInput} {configFiles : List ConfigFileState}
    {r : Except (IndexError ε) IndexResult}
    (h : Ends (refreshRepo port env rounds options repoUid currentFiles contractFiles configFiles)
      ⟨earlier, rest, []⟩ r w') : Guarded earlier w' r ∨ Stranded earlier w' r := by
  rcases ends_bind.mp h with ⟨e, hlatest, rfl⟩ | ⟨latest, u, hlatest, h⟩
  · exact Or.inl (.error (quiet_getLatestSnapshot _ hlatest).failureAtomic)
  have hu := quiet_getLatestSnapshot _ hlatest
  cases latest with
  | none => exact Or.inl (indexRepo_guarded hu h)
  | some parent =>
    dsimp only at h
    split at h
    · rcases ends_bind.mp h with ⟨e, hhashes, rfl⟩ | ⟨parentHashes, v, hhashes, h⟩
      · exact Or.inl (.error (IsTrans.trans _ _ _ hu (quiet_call (by decide) _ hhashes)).failureAtomic)
      have hv := IsTrans.trans _ _ _ hu (quiet_call (by decide) _ hhashes)
      split at h
      · exact Or.inl (indexRepo_guarded hv h)
      · exact refreshSnapshot_ends hv h
    · exact Or.inl (indexRepo_guarded hu h)

/-- A run of `index_repo` that fails leaves no snapshot of it READY, and its snapshot FAILED. A run of
`refresh_repo` does so exactly when none of the calls that it makes outside of its pipeline fails. -/
theorem runs_failureAtomic_iff {σ ε : Type} (port : StoragePort σ ε) (env : IndexerEnv σ) (rounds : ℕ)
    (options : IndexOptions) (repoUid : String) (files : List FileInput) (contractFiles : List ProtoFileInput)
    (configFiles : List ConfigFileState) (earlier : List Snapshot) (rest : σ) :
    (∀ r w, Ends (indexRepo port env rounds options repoUid files contractFiles) ⟨earlier, rest, []⟩ r w →
      ∀ e, r = .error e → FailureAtomic earlier w) ∧
    ∀ r w, Ends (refreshRepo port env rounds options repoUid files contractFiles configFiles)
      ⟨earlier, rest, []⟩ r w →
      ((∀ e, r = .error e → FailureAtomic earlier w) ↔ ∀ site ∈ unguardedSites, .failed site ∉ w.events) := by
  constructor
  · intro r w h
    exact (indexRepo_guarded (refl _) h).atomic
  · intro r w h
    rcases refreshRepo_ends h with hguarded | ⟨⟨e, rfl⟩, ⟨uid, hpending⟩, site, hsite, hfailed⟩
    · exact ⟨fun _ => hguarded.unfailed, fun _ => hguarded.atomic⟩
    · constructor
      · intro hatomic
        exact absurd (hatomic e rfl) hpending.not_failureAtomic
      · intro hunfailed
        exact absurd hfailed (hunfailed site hsite)

end Runs

section Samples

def answered {α : Type} (a : α) : Call Unit Unit α := fun s => (.ok a, s)

def answeredIf (c : Bool) {α : Type} (a : α) : Call Unit Unit α := fun s => (if c then .ok a else .error (), s)

def portSample (copies inserts : Bool) : StoragePort Unit Unit where
  newSnapshot _ := answered ("s2", "t2")
  duplicateKey := ()
  readBack _ := answered ()
  readLatestSnapshot _ := answered ()
  writeStatus _ _ := answered ()
  queryFileVersionHashes _ := answered (.ofList [("r:src/a.py", "h")])
  copyForwardUnchangedFiles _ := answeredIf copies ⟨1, []⟩
  getFilesByRepo _ := answered []
  upsertFiles _ := answered ()
  upsertFileVersions _ := answered ()
  insertNodes _ := answeredIf inserts ()
  insertExtractionEdges _ := answered ()
  insertFileSignals _ := answered ()
  queryResolverNodes _ := answered []
  queryFileSignalsBatch _ _ := answered []
  queryAllNodes _ := answered []
  queryExtractionEdgesBatch _ _ _ := answered []
  insertResolvedEdges _ := answered ()
  insertUnresolvedEdges _ := answered ()
  setEdgeTypeOnly _ := answered ()
  updateSnapshotCounts _ := answered ()
  persistResolvedCallAggregate _ _ := answered ()
  persistSymbolCallDegrees _ _ := answered ()
  persistResolvedCallFilePairs _ _ := answered ()
  updateSnapshotExtractionDiagnostics _ _ := answered ()
  indexProtoFiles _ _ _ := answered ⟨0, 0, []⟩
  runJavaMapping _ := id
  dispatchRecomputeRelationships _ _ _ := id

def envSample : IndexerEnv Unit where
  ext := ⟨fun _ => none, fun _ => "", fun _ => false, fun _ => false⟩
  extractors := []
  drainSnapshotExtras := none
  onProgress := none
  classifyFileLanguage _ _ := none
  isTestFile _ := false
  isGeneratedContent _ := false
  routeFile _ _ := none
  importBindingsText _ := ""
  readImportBindings _ := none
  readTsconfigMapping _ := none
  classifyUnresolvedEdge _ _ _ := ("", "")
  moduleNodeUid i := .ofList (List.replicate i 'u')
  moduleEdgeUid i := .ofList (List.replicate i 'u')

def parentSample : Snapshot := ⟨"s1", "r", none, .full, none, .ready, "t1", none⟩

/-- A refresh on a READY parent whose one file is as it was. -/
def refreshSample (copies inserts : Bool) : IndexM Unit Unit IndexResult :=
  refreshRepo (portSample copies inserts) envSample 1 ⟨none, none, none, [], []⟩ "r"
    [⟨"src/a.py", "", "h", 0, 0, none, none⟩] [] []

/-- The copy forward fails: the refresh ends in an error, and its snapshot stays BUILDING. -/
theorem refresh_not_failureAtomic :
    ∃ e w, Ends (refreshSample false true) ⟨[parentSample], (), []⟩ (.error e) w ∧ .created "s2" ∈ w.events ∧
      .statusRefused "s2" .failed ∉ w.events ∧ w.statusOf "s2" = some .building ∧
      ¬FailureAtomic [parentSample] w := by
  refine ⟨_, _, rfl, by decide, by decide, by decide, ?_⟩
  intro h
  have hfailed := h.failed "s2" (by decide) (by decide)
  exact absurd hfailed (by decide)

/-- The insertion of the module nodes fails: the refresh ends in an error, and its snapshot is FAILED. -/
theorem refresh_failureAtomic_insertFails :
    ∃ e w, Ends (refreshSample true false) ⟨[parentSample], (), []⟩ (.error e) w ∧
    FailureAtomic [parentSample] w := by
  obtain ⟨w, hends, hunfailed⟩ : ∃ w,
      Ends (refreshSample true false) ⟨[parentSample], (), []⟩ (.error (.storage ())) w ∧
      ∀ site ∈ unguardedSites, .failed site ∉ w.events :=
    ⟨_, rfl, by decide⟩
  have hiff := (runs_failureAtomic_iff (portSample true false) envSample 1 ⟨none, none, none, [], []⟩ "r"
    [⟨"src/a.py", "", "h", 0, 0, none, none⟩] [] [] [parentSample] ()).2 _ w hends
  exact ⟨_, w, hends, hiff.mpr hunfailed _ rfl⟩

end Samples

end RepoGraph.Indexer
