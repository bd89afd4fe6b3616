import Libdeno.Snapshot.Publication

/-!
# Libdeno.Snapshot.Import

What a successful import has read, against any publishers. Nothing the importer reads is
stable; what makes the result one publication is that the sidecar is only ever written
whole, that the manifest it goes by has the hash the sidecar states, and that every file
it leaves in `OUT_DIR` has the hash this manifest states.
-/

namespace Libdeno.Snapshot

open Lines Transition

variable {Pub : Type} {contents : Set (List UInt8)} {job : ImportJob}
  {staging : Pub → Staging job.shown job.lossy}

/-! ### What the importer knows -/

/-- The manifest file is one that is parsed to this manifest. -/
def Parses (job : ImportJob) (bytes : List UInt8) (manifest : Manifest) : Prop :=
  ∃ text, decodeUtf8 bytes = some text ∧ parse job.shown text = .ok manifest

/-- A publisher vouches for the manifest file, with the importer's source hash. -/
structure Vouched (contents : Set (List UInt8)) (job : ImportJob)
    (staging : Pub → Staging job.shown job.lossy) (published : List Pub)
    (bytes : List UInt8) (manifest : Manifest) : Prop where
  occurs : bytes ∈ contents
  parses : Parses job bytes manifest
  publisher : ∃ p ∈ published, (staging p).identity.text = job.identity.text ∧
    fingerprint (staging p).manifest = fingerprint bytes

/-- The snapshot and the table are those the manifest states. -/
structure Verified (contents : Set (List UInt8)) (job : ImportJob) (manifest : Manifest)
    (snapshot table : List UInt8) : Prop where
  snapshotOccurs : snapshot ∈ contents
  tableOccurs : table ∈ contents
  verified : verify manifest job.expected snapshot table = .ok ()

/-- `OUT_DIR` while the residuals `copied` are in it. -/
structure Output (contents : Set (List UInt8)) (snapshot table : List UInt8)
    (copied : List Str) (output : Dir) : Prop where
  residuals : ∀ name ∈ copied, ∃ bytes ∈ contents, output name = .ok bytes
  snapshot : snapshotFile ∉ copied → output snapshotFile = .ok snapshot
  table : tableFile ∉ copied → output tableFile = .ok table

/-- The importer's invariant, phase by phase. -/
def Knows (contents : Set (List UInt8)) (job : ImportJob)
    (staging : Pub → Staging job.shown job.lossy) (published : List Pub) : Import → Prop
  | .provenance _ bytes manifest => bytes ∈ contents ∧ Parses job bytes manifest
  | .readSnapshot bytes manifest => Vouched contents job staging published bytes manifest
  | .readTable bytes manifest snapshot =>
      Vouched contents job staging published bytes manifest ∧ snapshot ∈ contents
  | .readResiduals bytes manifest snapshot table _ =>
      Vouched contents job staging published bytes manifest ∧
        Verified contents job manifest snapshot table
  | .copyResiduals bytes manifest table rest output =>
      Vouched contents job staging published bytes manifest ∧
        ∃ snapshot copied, Verified contents job manifest snapshot table ∧
          tableSources (fromUtf8Lossy job.lossy table) = copied ++ rest ∧
          Output contents snapshot table copied output
  | .done bytes manifest output =>
      Vouched contents job staging published bytes manifest ∧
        ∃ snapshot table, Verified contents job manifest snapshot table ∧
          Output contents snapshot table (tableSources (fromUtf8Lossy job.lossy table))
            output ∧
          verifyResiduals job.shown manifest (fromUtf8Lossy job.lossy table) output = .ok ()
  | _ => True

theorem Vouched.publish {published : List Pub} {bytes : List UInt8} {manifest : Manifest}
    (h : Vouched contents job staging published bytes manifest) (p : Pub) :
    Vouched contents job staging (p :: published) bytes manifest := by
  obtain ⟨q, mem, hq⟩ := h.publisher
  exact ⟨h.occurs, h.parses, q, List.mem_cons_of_mem _ mem, hq⟩

/-- More publications take nothing away. -/
theorem Knows.publish {published : List Pub} {phase : Import}
    (h : Knows contents job staging published phase) (p : Pub) :
    Knows contents job staging (p :: published) phase := by
  cases phase with
  | wrapper => trivial
  | sidecarExists bytes => trivial
  | record bytes => trivial
  | buildManifest hash => trivial
  | provenance hash bytes manifest => exact h
  | readSnapshot bytes manifest => exact Vouched.publish h p
  | readTable bytes manifest snapshot => exact ⟨h.1.publish p, h.2⟩
  | readResiduals bytes manifest snapshot table rest => exact ⟨h.1.publish p, h.2⟩
  | copyResiduals bytes manifest table rest output => exact ⟨h.1.publish p, h.2⟩
  | done bytes manifest output => exact ⟨h.1.publish p, h.2⟩
  | failed => trivial

/-! ### What it knows after a read -/

section Reads

variable {published : List Pub}

theorem knows_copyNext {bytes : List UInt8} {manifest : Manifest} {snapshot table : List UInt8}
    {copied rest : List Str} {output : Dir}
    (vouched : Vouched contents job staging published bytes manifest)
    (verified : Verified contents job manifest snapshot table)
    (split : tableSources (fromUtf8Lossy job.lossy table) = copied ++ rest)
    (out : Output contents snapshot table copied output) :
    Knows contents job staging published
      (Import.copyNext job bytes manifest table rest output) := by
  rw [Import.copyNext]
  split
  · exact ⟨vouched, snapshot, copied, verified, split, out⟩
  · rename_i hrest
    rw [not_not.mp hrest, List.append_nil] at split
    split
    · trivial
    · rename_i hverified
      exact ⟨vouched, snapshot, table, verified, by rw [split]; exact out, hverified⟩

theorem knows_checkNext {bytes : List UInt8} {manifest : Manifest}
    {snapshot table : List UInt8} {rest : List Residual}
    (vouched : Vouched contents job staging published bytes manifest)
    (verified : Verified contents job manifest snapshot table) :
    Knows contents job staging published
      (Import.checkNext job bytes manifest snapshot table rest) := by
  rw [Import.checkNext]
  split
  · exact ⟨vouched, verified⟩
  · have hfiles : snapshotFile ≠ tableFile := by decide
    refine knows_copyNext vouched verified (List.nil_append _).symm ?_
    constructor
    · intro name mem
      cases mem
    · intro _
      rw [Dir.write_other hfiles, Dir.write_same]
    · intro _
      rw [Dir.write_same]

theorem Output.copy {snapshot table bytes : List UInt8} {copied : List Str} {output : Dir}
    (h : Output contents snapshot table copied output) (occurs : bytes ∈ contents)
    (name : Str) : Output contents snapshot table (copied ++ [name])
      (output.write name bytes) := by
  constructor
  · intro other mem
    by_cases hname : other = name
    · rw [hname, Dir.write_same]
      exact ⟨bytes, occurs, rfl⟩
    · rw [Dir.write_other hname]
      rcases List.mem_append.mp mem with mem | mem
      · exact h.residuals other mem
      · exact absurd (List.mem_singleton.mp mem) hname
  · intro hnot
    rw [List.mem_append, List.mem_singleton, not_or] at hnot
    rw [Dir.write_other hnot.2]
    exact h.snapshot hnot.1
  · intro hnot
    rw [List.mem_append, List.mem_singleton, not_or] at hnot
    rw [Dir.write_other hnot.2]
    exact h.table hnot.1

/-- Whatever is read, as long as it occurs. -/
theorem Knows.onRead {phase : Import} (h : Knows contents job staging published phase)
    {found : List UInt8} (occurs : found ∈ contents) :
    Knows contents job staging published (phase.onRead job found) := by
  cases phase with
  | wrapper =>
      rw [Import.onRead]
      split
      · trivial
      · trivial
  | buildManifest hash =>
      rw [Import.onRead]
      split
      · trivial
      · rename_i text htext
        split
        · trivial
        · rename_i manifest hmanifest
          exact ⟨occurs, text, htext, hmanifest⟩
  | readSnapshot bytes manifest => exact ⟨h, occurs⟩
  | readTable bytes manifest snapshot =>
      rw [Import.onRead]
      split
      · trivial
      · rename_i hverified
        split
        · exact knows_checkNext h.1 ⟨h.2, occurs, hverified⟩
        · trivial
  | readResiduals bytes manifest snapshot table rest =>
      cases rest with
      | nil => trivial
      | cons residual rest =>
          rw [Import.onRead]
          split
          · trivial
          · exact knows_checkNext h.1 h.2
  | copyResiduals bytes manifest table rest output =>
      cases rest with
      | nil => trivial
      | cons name rest =>
          obtain ⟨hvouched, snapshot, copied, hverified, hsplit, hout⟩ := h
          rw [Import.onRead]
          split
          · trivial
          · rename_i bytes' hfetch
            have hbytes : bytes' = found := by
              rw [fetchResidual] at hfetch
              split at hfetch
              · cases hfetch
              · exact (Except.ok.inj hfetch).symm
            rw [hbytes]
            refine knows_copyNext hvouched hverified ?_ (hout.copy occurs name)
            rw [hsplit, List.append_assoc]
            rfl
  | sidecarExists bytes => trivial
  | record bytes => trivial
  | provenance hash bytes manifest => trivial
  | done bytes manifest output => trivial
  | failed => trivial

/-- Whatever the sidecar is, as long as some publisher wrote it. -/
theorem Knows.onSidecar {phase : Import} (h : Knows contents job staging published phase)
    {sidecar : Option (List UInt8)}
    (written : ∀ bytes, sidecar = some bytes →
      ∃ p ∈ published, bytes = (staging p).sidecar) :
    Knows contents job staging published (phase.onSidecar job sidecar) := by
  cases phase with
  | sidecarExists bytes =>
      rw [Import.onSidecar]
      split
      · trivial
      · trivial
  | record bytes =>
      cases sidecar with
      | none => trivial
      | some found =>
          rw [Import.onSidecar]
          split
          · trivial
          · trivial
  | provenance hash bytes manifest =>
      rw [Import.onSidecar]
      split
      · trivial
      · rename_i hverified
        obtain ⟨found, hfound, hall⟩ := verifyCompat_inv hverified
        obtain ⟨p, mem, hp⟩ := written found hfound
        obtain ⟨hmanifest, hidentity⟩ := hall _ _ _ hp
        exact ⟨h.1, h.2, p, mem, hidentity, hmanifest⟩
  | wrapper => trivial
  | buildManifest hash => trivial
  | readSnapshot bytes manifest => trivial
  | readTable bytes manifest snapshot => trivial
  | readResiduals bytes manifest snapshot table rest => trivial
  | copyResiduals bytes manifest table rest output => trivial
  | done bytes manifest output => trivial
  | failed => trivial

end Reads

/-! ### What a finished import leaves -/

theorem Staging.lookup_of_dir {shown : Char → Bool} {lossy : List UInt8 → Str}
    {staging : Staging shown lossy} {name : Str} {bytes : List UInt8}
    (h : staging.dir name = .ok bytes) : staging.tree.lookup name = some bytes := by
  rw [Staging.dir] at h
  split at h
  · rename_i found hfound
    rw [hfound, Except.ok.inj h]
  · cases h

theorem Staging.mem_of_dir {shown : Char → Bool} {lossy : List UInt8 → Str}
    {staging : Staging shown lossy} {name : Str} {bytes : List UInt8}
    (h : staging.dir name = .ok bytes) : (name, bytes) ∈ staging.tree := by
  obtain ⟨before, after, hsplit, _⟩ := List.lookup_eq_some_iff.mp (Staging.lookup_of_dir h)
  rw [hsplit]
  exact List.mem_append_right _ List.mem_cons_self

/-- A finished import leaves one publication's snapshot, table and residuals. -/
theorem Knows.done {published : List Pub} {bytes : List UInt8} {manifest : Manifest}
    {output : Dir} (inj : Set.InjOn fingerprint contents)
    (staged : ∀ p, ∀ file ∈ (staging p).tree, file.2 ∈ contents)
    (h : Knows contents job staging published (.done bytes manifest output)) :
    ∃ p ∈ published, (staging p).identity.text = job.identity.text ∧
      (staging p).dir manifestFile = .ok bytes ∧ Parses job bytes manifest ∧
      manifest.identity = job.expected ∧
      ∃ table, (staging p).dir tableFile = .ok table ∧
        ∀ name ∈ snapshotFile :: tableFile :: tableSources (fromUtf8Lossy job.lossy table),
          output name = (staging p).dir name := by
  obtain ⟨hvouched, snapshot, table, hverified, hout, hresiduals⟩ := h
  obtain ⟨p, mem, hidentity, hmanifest⟩ := hvouched.publisher
  have hcoherent : Coherent job.shown job.lossy (staging p).dir := (staging p).coherent
  obtain ⟨bytes', text', manifest', snapshot', table', hbytes, htext, hparse, hsnapshot, htable,
    hverify, hlisted⟩ := hcoherent
  have hoccurs : ∀ {name : Str} {found : List UInt8}, (staging p).dir name = .ok found →
      found ∈ contents :=
    fun hfound => staged p _ (Staging.mem_of_dir hfound)
  -- The manifest the importer went by is the publisher's.
  have hown : (staging p).manifest = bytes' := by
    rw [Staging.manifest, Staging.lookup_of_dir hbytes]
    rfl
  rw [hown] at hmanifest
  have hsame : bytes' = bytes := inj (hoccurs hbytes) hvouched.occurs hmanifest
  have hmanifests : manifest' = manifest := by
    obtain ⟨text, htext', hparse'⟩ := hvouched.parses
    rw [hsame, htext'] at htext
    rw [← Option.some.inj htext, hparse'] at hparse
    exact (Except.ok.inj hparse).symm
  rw [hmanifests] at hverify hlisted
  -- So are the snapshot and the table, by their hashes.
  obtain ⟨hexpected, _, hhash, _, htablehash⟩ := verify_inv hverified.verified
  obtain ⟨_, _, hhash', _, htablehash'⟩ := verify_inv hverify
  have hsnapshots : snapshot = snapshot' :=
    inj hverified.snapshotOccurs (hoccurs hsnapshot) (hhash.trans hhash'.symm)
  have htables : table = table' :=
    inj hverified.tableOccurs (hoccurs htable) (htablehash.trans htablehash'.symm)
  rw [← htables] at htable hlisted
  -- And every residual of the table.
  have hsources : ∀ name ∈ tableSources (fromUtf8Lossy job.lossy table),
      output name = (staging p).dir name := by
    intro name hname
    obtain ⟨hnames, hall⟩ := verifyResiduals_inv hresiduals
    obtain ⟨_, hall'⟩ := verifyResiduals_inv hlisted
    have hrecorded : name ∈ manifest.residuals.map (·.name) := by
      refine mem_sortDedup ?_
      rw [hnames]
      exact mem_sortDedup_of_mem hname
    obtain ⟨residual, hresidual, rfl⟩ := List.mem_map.mp hrecorded
    obtain ⟨left, hleft, _, hlefthash⟩ := hall residual hresidual
    obtain ⟨right, hright, _, hrighthash⟩ := hall' residual hresidual
    obtain ⟨copied, hcopied, houtput⟩ := hout.residuals residual.name hname
    have hleft' := (Dir.read_inv hleft).1
    have hright' := (Dir.read_inv hright).1
    rw [houtput] at hleft'
    have hbytes : left ∈ contents := by
      rw [← Except.ok.inj hleft']
      exact hcopied
    have heq : left = right :=
      inj hbytes (hoccurs hright') (hlefthash.trans hrighthash.symm)
    rw [houtput, hleft', heq, hright']
  refine ⟨p, mem, hidentity, by rw [hbytes, hsame], hvouched.parses, hexpected, table, htable,
    ?_⟩
  intro name hname
  by_cases hsource : name ∈ tableSources (fromUtf8Lossy job.lossy table)
  · exact hsources name hsource
  · rcases List.mem_cons.mp hname with rfl | hname
    · rw [hout.snapshot hsource, hsnapshots, hsnapshot]
    · rcases List.mem_cons.mp hname with rfl | hname
      · rw [hout.table hsource, htable]
      · exact absurd hname hsource

/-! ### Every run -/

theorem knows_step [DecidableEq Pub] {s t : State Pub} (sound : Sound contents staging s)
    (h : Knows contents job staging s.published s.importer)
    (step : Step contents job staging s t) :
    Knows contents job staging t.published t.importer := by
  cases step with
  | record _ => exact h.publish _
  | readWhole _ _ whole => exact h.onRead (sound.occurring _ _ whole)
  | readMixed _ _ _ occurs => exact h.onRead occurs
  | readSidecar _ =>
      refine h.onSidecar ?_
      intro bytes hbytes
      obtain ⟨p, mem, hp, _⟩ := sound.behind.sidecar bytes hbytes
      exact ⟨p, mem, hp⟩
  | fail => trivial
  | unfit _ _ => exact h
  | refused _ _ => exact h
  | enter _ _ _ => exact h
  | own _ => exact h
  | disowned _ => exact h
  | clear _ => exact h
  | openTarget _ _ => exact h
  | writePart _ _ => exact h
  | finishTarget _ => exact h
  | raise _ => exact h
  | disown _ _ => exact h
  | forsake _ _ => exact h
  | unlock _ => exact h
  | crash _ => exact h
  | removeStale _ _ => exact h
  | openFile _ _ _ => exact h

section Undisturbed

variable [DecidableEq Pub]

/-- A publisher that is let alone copies all its files; nothing else changes. -/
theorem copy_run (p : Pub) (rest : List (Str × List UInt8)) {s : State Pub}
    (copying : s.publisher p = .copying rest) (occurs : ∀ file ∈ rest, file.2 ∈ contents) :
    ∃ t, Run (Step contents job staging) s t ∧ t.publisher p = .copying [] ∧
      t.importer = s.importer ∧ t.opened = s.opened := by
  induction rest generalizing s with
  | nil => exact ⟨s, .refl, copying, rfl, rfl⟩
  | cons file rest ih =>
      let opened := (s.move p (.writing file rest)).change file.1 file.2
      let finished := (opened.move p (.copying rest)).change file.1 file.2
      have hopen : Step contents job staging s opened :=
        .openTarget copying (occurs file List.mem_cons_self)
      have hfinish : Step contents job staging opened finished :=
        .finishTarget (s.move_self p (.writing file rest))
      obtain ⟨t, hrun, hphase, himporter, hopened⟩ :=
        ih (s := finished) (opened.move_self p (.copying rest))
          fun file mem => occurs file (List.mem_cons_of_mem _ mem)
      exact ⟨t, .head hopen (.head hfinish hrun), hphase, himporter, hopened⟩

/-- From a free lock to the sidecar. -/
theorem publish_run {p : Pub} {s : State Pub} (ready : s.publisher p = .ready)
    (check : (staging p).check = .ok ()) (free : s.lock = none)
    (staged : ∀ file ∈ (staging p).tree, file.2 ∈ contents) :
    ∃ t, Run (Step contents job staging) s t ∧ t.sidecar = some (staging p).sidecar ∧
      t.importer = s.importer ∧ t.opened = s.opened := by
  let entered : State Pub := { s.move p .entering with lock := some p }
  let owned : State Pub := { entered.move p .clearing with owner := some p }
  let cleared : State Pub :=
    { owned.move p (.copying (staging p).files) with sidecar := none }
  have henter : Step contents job staging s entered := .enter ready check free
  have hown : Step contents job staging entered owned := .own (s.move_self p .entering)
  have hclear : Step contents job staging owned cleared :=
    .clear (entered.move_self p .clearing)
  obtain ⟨t, hrun, hcopied, himporter, hopened⟩ :=
    copy_run p (staging p).files (s := cleared) (owned.move_self p _)
      fun file mem => staged file (List.mem_filter.mp mem).1
  have hrecord : Step contents job staging t
      { t.move p .leaving with
        sidecar := some (staging p).sidecar, published := p :: t.published } :=
    .record hcopied
  exact ⟨_, .head henter (.head hown (.head hclear (hrun.tail hrecord))), rfl, himporter,
    hopened⟩

/-- The state with the importer moved and no file open. -/
def State.think (s : State Pub) (phase : Import) : State Pub :=
  { s with importer := phase, opened := none }

/-- A file that is opened and read while nobody writes it. -/
theorem read_run {s : State Pub} {phase : Import} {name : Str} {bytes : List UInt8}
    (wants : phase.wants job = some name) (content : (s.files name).content = some bytes) :
    Run (Step contents job staging) (s.think phase) (s.think (phase.onRead job bytes)) := by
  let opened : State Pub := { s.think phase with opened := some (s.files name).version }
  have hfound : (s.files name).content ≠ none := by
    rw [content]
    simp
  have hopen : Step contents job staging (s.think phase) opened := .openFile wants rfl hfound
  have hread : Step contents job staging opened (s.think (phase.onRead job bytes)) :=
    .readWhole wants rfl content
  exact .head hopen (.single hread)

/-- A look at the sidecar. -/
theorem sidecar_run {s : State Pub} {phase : Import} (wants : phase.WantsSidecar) :
    Run (Step contents job staging) (s.think phase)
      (s.think (phase.onSidecar job s.sidecar)) :=
  .single (.readSidecar wants)

end Undisturbed

/-! ### A publication and an import, followed by hand -/

/-- The digest of both sides. -/
def sampleDigest : Digest := ⟨List.replicate 64 'a', by decide, forall_mem_of_all (by decide)⟩

/-- A table without residuals. -/
def sampleTable : Str := residualTable (fun _ => false) [] []

def sampleManifest : Manifest := describe sampleIdentity [1] (encodeUtf8 sampleTable)

def sampleBytes : List UInt8 := encodeUtf8 (render sampleManifest)

def sampleTree : List (Str × List UInt8) :=
  [(manifestFile, sampleBytes), (snapshotFile, [1]), (tableFile, encodeUtf8 sampleTable)]

theorem sampleManifest_parses :
    parse (fun _ => false) (render sampleManifest) = .ok sampleManifest := by
  refine parse_render ?_
  constructor
  · constructor <;> decide
  · decide
  · exact .fingerprint _
  · decide +kernel
  · exact .fingerprint _
  · intro residual mem
    cases mem

theorem sampleManifest_verified :
    verify sampleManifest sampleManifest.identity [1] (encodeUtf8 sampleTable) = .ok () :=
  verify_describe sampleIdentity [1] (encodeUtf8 sampleTable) []

theorem sampleTable_sources : tableSources sampleTable = [] :=
  tableSources_residualTable (by simp)

theorem sampleTable_text (lossy : List UInt8 → Str) :
    fromUtf8Lossy lossy (encodeUtf8 sampleTable) = sampleTable := by
  rw [fromUtf8Lossy, decodeUtf8_encodeUtf8]
  rfl

theorem sample_residuals (dir : Dir) :
    verifyResiduals (fun _ => false) sampleManifest sampleTable dir = .ok () := by
  have hlisted : ResidualsListed sampleManifest sampleTable := by
    rw [ResidualsListed, sampleTable_sources]
    exact ⟨rfl, rfl⟩
  rw [verifyResiduals, if_neg (not_not.mpr hlisted)]
  rfl

theorem sampleTree_lookup : sampleTree.lookup manifestFile = some sampleBytes ∧
    sampleTree.lookup snapshotFile = some [1] ∧
    sampleTree.lookup tableFile = some (encodeUtf8 sampleTable) := by
  have hsnapshot : (snapshotFile == manifestFile) = false := by decide
  have htable : (tableFile == manifestFile) = false := by decide
  have htable' : (tableFile == snapshotFile) = false := by decide
  refine ⟨?_, ?_, ?_⟩
  · rw [sampleTree, List.lookup_cons_self]
  · rw [sampleTree, List.lookup_cons, hsnapshot, List.lookup_cons_self]
  · rw [sampleTree, List.lookup_cons, htable, List.lookup_cons, htable',
      List.lookup_cons_self]

/-- The import of the sample. -/
def sampleJob : ImportJob where
  shown := fun _ => false
  lossy := fun _ => []
  canonical := some
  target := lit "t"
  bundle := lit "b"
  identity := sampleDigest
  expected := sampleIdentity
  output := fun _ => .error "not found"

/-- What the publisher of the sample publishes. -/
def sampleStaging : Staging sampleJob.shown sampleJob.lossy where
  tree := sampleTree
  target := lit "t"
  identity := sampleDigest
  distinct := by decide
  coherent := by
    refine ⟨sampleBytes, render sampleManifest, sampleManifest, [1], encodeUtf8 sampleTable,
      ?_, decodeUtf8_encodeUtf8 _, sampleManifest_parses, ?_, ?_, sampleManifest_verified, ?_⟩
    · simp only [sampleTree_lookup.1]
    · simp only [sampleTree_lookup.2.1]
    · simp only [sampleTree_lookup.2.2]
    · rw [sampleTable_text]
      exact sample_residuals _

/-- The byte strings of the sample. -/
def sampleContents : Set (List UInt8) := {bytes | bytes ∈ sampleTree.map Prod.snd}

theorem sampleContents_inj : Set.InjOn fingerprint sampleContents := by
  have hdistinct : ((sampleTree.map Prod.snd).map fingerprint).Nodup := by decide +kernel
  intro x hx y hy heq
  exact List.inj_on_of_nodup_map hdistinct hx hy heq

theorem sample_staged : ∀ file ∈ sampleStaging.tree, file.2 ∈ sampleContents :=
  fun _ mem => List.mem_map_of_mem mem

/-- Nobody has started, and the directory is empty. -/
def sampleStart : State Unit where
  files := fun _ => ⟨none, 0⟩
  sidecar := none
  lock := none
  owner := none
  publisher := fun _ => .ready
  published := []
  importer := .wrapper
  opened := none

theorem sampleStart_initial : Initial sampleContents sampleStart where
  files _ _ h := by cases h
  sidecar := rfl
  lock := rfl
  owner := rfl
  publisher _ := rfl
  published := rfl
  importer := rfl
  opened := rfl

theorem sampleStaging_manifest : sampleStaging.manifest = sampleBytes := by
  show (sampleTree.lookup manifestFile).getD [] = sampleBytes
  rw [sampleTree_lookup.1]
  rfl

theorem sampleBytes_format : HasFormat sampleBytes := by decide +kernel

theorem sampleStaging_check : sampleStaging.check = .ok () := by
  have hfind : [manifestFile, snapshotFile, tableFile].find?
      (fun name => (sampleStaging.tree.lookup name).isNone) = none := by
    rw [List.find?_eq_none]
    show ∀ name ∈ [manifestFile, snapshotFile, tableFile],
      ¬ (sampleTree.lookup name).isNone = true
    simp only [List.forall_mem_cons, sampleTree_lookup]
    simp
  rw [Staging.check]
  simp only [hfind, sampleStaging_manifest, if_pos sampleBytes_format]

/-- The steps of an import that nobody disturbs. -/
theorem sample_import {s : State Unit} (sidecar : s.sidecar = some sampleStaging.sidecar)
    (placed : ∀ file ∈ sampleTree, (s.files file.1).content = some file.2) :
    ∃ output, Run (Step sampleContents sampleJob fun _ => sampleStaging) (s.think .wrapper)
      (s.think (.done sampleBytes sampleManifest output)) := by
  have hsidecar : sampleStaging.sidecar =
      encodeUtf8 (sidecarText (lit "t") sampleDigest sampleBytes) := by
    rw [Staging.sidecar, sampleStaging_manifest]
    rfl
  have hchecked : checkSidecar sampleJob.target sampleJob.identity sampleBytes
      sampleStaging.sidecar = true := by
    rw [hsidecar, checkSidecar, readRecord, decodeUtf8_encodeUtf8]
    decide +kernel
  have hcompat : verifyCompat sampleJob.canonical sampleJob.bundle sampleJob.expected.target
      sampleBytes (declarationText (lit "verified") sampleJob.target sampleJob.bundle
        (fnv sampleBytes) sampleJob.identity) (some sampleStaging.sidecar) = .ok () := by
    rw [hsidecar, verifyCompat]
    simp only [decodeUtf8_encodeUtf8]
    decide +kernel
  have hwrapper : Import.wrapper.onRead sampleJob sampleBytes =
      .sidecarExists sampleBytes := by
    rw [Import.onRead, if_pos sampleBytes_format]
  have hrecord : (Import.record sampleBytes).onSidecar sampleJob s.sidecar =
      .buildManifest (fnv sampleBytes) := by
    rw [sidecar, Import.onSidecar]
    simp only [hchecked, if_true]
  have hexists : (Import.sidecarExists sampleBytes).onSidecar sampleJob s.sidecar =
      .record sampleBytes := by
    rw [sidecar]
    rfl
  have hmanifest : (Import.buildManifest (fnv sampleBytes)).onRead sampleJob sampleBytes =
      .provenance (fnv sampleBytes) sampleBytes sampleManifest := by
    have htext : decodeUtf8 sampleBytes = some (render sampleManifest) :=
      decodeUtf8_encodeUtf8 _
    have hparse : parse sampleJob.shown (render sampleManifest) = .ok sampleManifest :=
      sampleManifest_parses
    rw [Import.onRead]
    simp only [htext, hparse]
  have hprovenance : (Import.provenance (fnv sampleBytes) sampleBytes sampleManifest).onSidecar
      sampleJob s.sidecar = .readSnapshot sampleBytes sampleManifest := by
    rw [sidecar, Import.onSidecar]
    simp only [hcompat]
  have htable : (Import.readTable sampleBytes sampleManifest [1]).onRead sampleJob
      (encodeUtf8 sampleTable) = .done sampleBytes sampleManifest
        ((sampleJob.output.write snapshotFile [1]).write tableFile (encodeUtf8 sampleTable)) := by
    have hverify : verify sampleManifest sampleJob.expected [1] (encodeUtf8 sampleTable) =
        .ok () := sampleManifest_verified
    have hlisted : ResidualsListed sampleManifest sampleTable := by
      rw [ResidualsListed, sampleTable_sources]
      exact ⟨rfl, rfl⟩
    have hnone : sampleManifest.residuals = [] := rfl
    have hresiduals : verifyResiduals sampleJob.shown sampleManifest sampleTable
        ((sampleJob.output.write snapshotFile [1]).write tableFile (encodeUtf8 sampleTable)) =
        .ok () := sample_residuals _
    rw [Import.onRead]
    simp only [hverify, sampleTable_text, if_pos hlisted, hnone, Import.checkNext,
      Import.copyNext, sampleTable_sources, hresiduals, ne_eq, not_true_eq_false, if_false]
  have hread : ∀ {phase next : Import} {name : Str} {bytes : List UInt8},
      phase.wants sampleJob = some name → (name, bytes) ∈ sampleTree →
      phase.onRead sampleJob bytes = next →
      Run (Step sampleContents sampleJob fun _ => sampleStaging) (s.think phase)
        (s.think next) := by
    intro phase next name bytes wants mem heq
    rw [← heq]
    exact read_run wants (placed _ mem)
  have hlook : ∀ {phase next : Import}, phase.onSidecar sampleJob s.sidecar = next →
      phase.WantsSidecar →
      Run (Step sampleContents sampleJob fun _ => sampleStaging) (s.think phase)
        (s.think next) := by
    intro phase next heq wants
    rw [← heq]
    exact sidecar_run wants
  have hbytes : (manifestFile, sampleBytes) ∈ sampleTree := List.mem_cons_self
  have hsnapshot : (snapshotFile, [1]) ∈ sampleTree :=
    List.mem_cons_of_mem _ List.mem_cons_self
  have htree : (tableFile, encodeUtf8 sampleTable) ∈ sampleTree :=
    List.mem_cons_of_mem _ (List.mem_cons_of_mem _ List.mem_cons_self)
  exact ⟨_, (hread rfl hbytes hwrapper).trans <| (hlook hexists trivial).trans <|
    (hlook hrecord trivial).trans <| (hread rfl hbytes hmanifest).trans <|
    (hlook hprovenance trivial).trans <| (hread rfl hsnapshot rfl).trans <|
    hread rfl htree htable⟩

/-- The sample is published and imported. -/
theorem sample_reachable : ∃ s output,
    Reachable (Initial sampleContents)
      (Step sampleContents sampleJob fun _ : Unit => sampleStaging) s ∧
    s.importer = .done sampleBytes sampleManifest output := by
  have hpublished : ∃ t, Run (Step sampleContents sampleJob fun _ : Unit => sampleStaging)
      sampleStart t ∧ t.sidecar = some sampleStaging.sidecar ∧
      t.importer = sampleStart.importer ∧ t.opened = sampleStart.opened :=
    publish_run (p := ()) rfl sampleStaging_check rfl sample_staged
  obtain ⟨t, hrun, hsidecar, himporter, hopened⟩ := hpublished
  have hreach : Reachable (Initial sampleContents)
      (Step sampleContents sampleJob fun _ : Unit => sampleStaging) t :=
    ⟨sampleStart, sampleStart_initial, hrun⟩
  obtain ⟨_, _, _, hplaced⟩ :=
    (sound_reachable (fun _ => sample_staged) hreach).behind.sidecar _ hsidecar
  have hfiles : sampleStaging.files = sampleTree := by
    refine List.filter_eq_self.mpr ?_
    have hnames : ∀ name ∈ [manifestFile, snapshotFile, tableFile],
        baseName name ≠ sidecarFile := by decide
    intro file mem
    have hname : file.1 ∈ sampleTree.map Prod.fst := List.mem_map_of_mem mem
    simpa using hnames _ hname
  rw [hfiles] at hplaced
  obtain ⟨output, himport⟩ := sample_import hsidecar hplaced
  have hstart : t = t.think .wrapper := by
    cases t
    simp only [State.think] at himporter hopened ⊢
    rw [himporter, hopened]
    rfl
  rw [← hstart] at himport
  exact ⟨_, output, hreach.run himport, rfl⟩

end Libdeno.Snapshot
