import Mathlib.Data.Finset.Image
import LivefireRag.Lib.Fields
import LivefireRag.Builder.Basic
import LivefireRag.Cloud.BundleBuilder

/-!
# Coverage of the embedding artifacts

The check that a directory of embedding artifacts holds the files of a plan and no
others. A writer that crashed leaves its staging file behind, so the walk first asks
of every file whether its name is one that a writer stages under
(`internalEmbeddingStageProcessId`). Such a file is not counted, and it is removed
once the process in its name is gone.

The names come in two grammars, `.livefire-rag-atomic-PID-SEQUENCE-RANDOM.partial` and
`.DESTINATION.PID.SEQUENCE.partial`; `StagingName` says which names they make of a
plan, and `internalEmbeddingStageProcessId_eq_some` that the reader finds exactly these.

The walk asks about the name before it asks whether the plan has the file. The checks
of a plan keep its own paths distinct and no more, so a plan can have a result under a
staging name, or where the report of a task, the manifest, the summary or the profile
belongs. `keepsPlanned_iff` is the exact extent: the check leaves the planned files
alone, and tells them apart, for the plans whose paths are clear of those names
(`NamesApart`). The bundle of a cloud run refuses such clashes of keys among its
outputs.
-/

namespace LivefireRag.Builder

open Pipeline Cloud Machine Text

/-! ### Paths -/

/-- A path below the root as the walk meets it: every segment is a file name. -/
abbrev TreePath :=
  { name : String // ∀ segment ∈ split '/' name, segment ≠ "" ∧ segment ≠ "." ∧ segment ≠ ".." }

/-- A safe path as a path of the tree. -/
def treePath (path : SafeRelativePath) : TreePath := ⟨path.val, path.property.2.2.2.2⟩

/-- The directory of a file, as its segments. The root has none. -/
def parent (path : String) : List String := (split '/' path).dropLast

def fileName (path : String) : String := (split '/' path).getLastD ""

/-! ### Staging names -/

/-- The fields of a staging name: a process id, a sequence number, and the field after
them. `none` stands for the `?` that leaves the whole classification. -/
def readStageFields : List String → Option (U32 × Option String)
  | processId :: sequence :: rest => do
    let processId ← parseUnsigned 32 processId
    let _ ← parseUnsigned 64 sequence
    return (processId, rest.head?)
  | _ => none

/-- The text between a given start and a given ending. -/
def stripAround (start ending name : String) : Option String := do
  stripEnding ending (← stripStart start name)

section Classification

variable (plan : EmbeddingPlanV2)

/-- Files are written atomically in the root and in the directories of receipts and
reports. -/
def atomicParentAllowed (directory : List String) : Bool :=
  directory = [] || plan.tasks.any fun task =>
    parent task.receiptPath.val = directory || parent (reportKeyText task.taskId) = directory

/-- The result staging names, task by task. A name that starts and ends like one of a
task, but does not hold the two numbers, ends the search. -/
def resultStageProcessId (directory : List String) (name : String) :
    List EmbeddingTaskV2 → Option U32
  | [] => none
  | task :: tasks =>
    if parent task.resultPath.val ≠ directory then resultStageProcessId directory name tasks
    else
      match stripAround ("." ++ fileName task.resultPath.val ++ ".") ".partial" name with
      | none => resultStageProcessId directory name tasks
      | some body => do
        let (processId, further) ← readStageFields (split '.' body)
        if further = none then return processId
        else resultStageProcessId directory name tasks

def internalEmbeddingStageProcessId (relative : String) : Option U32 :=
  let directory := parent relative
  let name := fileName relative
  match (if atomicParentAllowed plan directory then
    stripAround ".livefire-rag-atomic-" ".partial" name else none) with
  | none => resultStageProcessId directory name plan.tasks
  | some body => do
    let (processId, random) ← readStageFields (splitn 3 '-' body)
    if random.any (· ≠ "") then return processId
    else resultStageProcessId directory name plan.tasks

end Classification

/-! ### The walk -/

/-- An entry of the tree, in the order in which the walk meets them. Directories are
walked and leave no entry. -/
inductive TreeEntry where
  | file (relative : TreePath)
  | notUtf8
  | symlink
  | unsupported
  | unreadable

/-- What becomes of a file that is to be removed. -/
inductive Removal where
  | removed
  | removedUnsynced
  | failed
  deriving DecidableEq

/-- The processes that run, and what the file system does on removal. -/
structure CoverageHost where
  processIsActive : U32 → Bool
  remove : String → Removal

/-- The files that count, and those that are gone. -/
structure Walk where
  actual : Finset String
  removed : List String

def manifestFile := "manifest.json"
def summaryFile := "summary.json"
def embeddingProfileFile := "embedding-profile.json"

section Check

variable (host : CoverageHost) (plan : EmbeddingPlanV2)

/-- One entry. The walk is returned with an error too: what was removed stays removed. -/
def visit (walk : Walk) : TreeEntry → Result Unit × Walk
  | .file relative =>
    match internalEmbeddingStageProcessId plan relative.val with
    | some processId =>
      if host.processIsActive processId then (.ok (), walk)
      else
        match host.remove relative.val with
        | .removed => (.ok (), { walk with removed := walk.removed ++ [relative.val] })
        | .removedUnsynced => (.error .io, { walk with removed := walk.removed ++ [relative.val] })
        | .failed => (.error .io, walk)
    | none => (.ok (), { walk with actual := insert relative.val walk.actual })
  | .notUtf8 => (.error (.accountingClosure "embedding artifact path is not UTF-8"), walk)
  | .symlink => (.error (.accountingClosure "embedding artifact tree contains a symlink"), walk)
  | .unsupported =>
    (.error (.accountingClosure "embedding artifact tree contains an unsupported entry"), walk)
  | .unreadable => (.error .io, walk)

def walkTree : Walk → List TreeEntry → Result Unit × Walk
  | walk, [] => (.ok (), walk)
  | walk, entry :: entries =>
    match visit host plan walk entry with
    | (.ok (), walk) => walkTree walk entries
    | (.error error, walk) => (.error error, walk)

def expectedArtifacts (requireManifest : Bool) : Finset String :=
  ((if requireManifest then [manifestFile, summaryFile, embeddingProfileFile] else []) ++
    plan.tasks.flatMap fun task =>
      [task.resultPath.val, task.receiptPath.val, reportKeyText task.taskId]).toFinset

/-- The result of the check, and the files it removed. -/
def validateEmbeddingArtifactCoverageV2 (requireManifest : Bool) (entries : List TreeEntry) :
    Result Unit × List String :=
  match walkTree host plan ⟨∅, []⟩ entries with
  | (.error error, walk) => (.error error, walk.removed)
  | (.ok (), walk) =>
    if walk.actual ≠ expectedArtifacts plan requireManifest then
      (.error (.accountingClosure "embedding artifact coverage differs from plan"), walk.removed)
    else (.ok (), walk.removed)

end Check

/-! ### What the reader of staging names finds -/

/-- A process id and a sequence number in front of what may follow them. -/
def StageFields (separator : Char) (body : String) (processId : U32) (rest : Option String) :
    Prop :=
  ∃ first second, parseUnsigned 32 first = some processId ∧ (parseUnsigned 64 second).isSome ∧
    body = joined separator first
      (match rest with
      | none => second
      | some rest => joined separator second rest)

theorem readStageFields_eq_some {fields : List String} {processId : U32} {rest : Option String} :
    readStageFields fields = some (processId, rest) ↔
      ∃ first second further, fields = first :: second :: further ∧
        parseUnsigned 32 first = some processId ∧ (parseUnsigned 64 second).isSome ∧
        further.head? = rest := by
  match fields with
  | [] => simp [readStageFields]
  | [_] => simp [readStageFields]
  | first :: second :: further =>
    simp only [readStageFields, Option.bind_eq_bind, Option.bind_eq_some_iff, Option.pure_def,
      Option.some.injEq, Prod.mk.injEq, List.cons_eq_cons, Option.isSome_iff_exists]
    constructor
    · rintro ⟨_, hfirst, sequence, hsecond, rfl, hrest⟩
      exact ⟨first, second, further, ⟨rfl, rfl, rfl⟩, hfirst, ⟨sequence, hsecond⟩, hrest⟩
    · rintro ⟨_, _, _, ⟨rfl, rfl, rfl⟩, hfirst, ⟨sequence, hsecond⟩, hrest⟩
      exact ⟨processId, hfirst, sequence, hsecond, rfl, hrest⟩

section Fields

variable {separator : Char} (hdigit : ¬ separator.isDigit) (hsign : separator ≠ '+')
include hdigit hsign

/-- Cut into three: everything after the two numbers is the third field. -/
theorem readStageFields_splitn (body : String) (processId : U32) (rest : Option String) :
    readStageFields (splitn 3 separator body) = some (processId, rest) ↔
      StageFields separator body processId rest := by
  rw [readStageFields_eq_some]
  constructor
  · rintro ⟨first, second, further, hcut, hfirst, hsecond, hrest⟩
    refine ⟨first, second, hfirst, hsecond, ?_⟩
    obtain ⟨-, tail, rfl, htail⟩ := splitn_eq_cons_cons.mp hcut
    cases further with
    | nil =>
      rw [← hrest]
      rcases notMem_or_joined separator tail with hfree | ⟨head, last, hfree, rfl⟩
      · rw [splitn_eq_singleton 1 hfree, List.singleton_inj] at htail
        rw [htail]
        rfl
      · rw [splitn_append_separator 0 hfree, List.cons_eq_cons] at htail
        exact absurd htail.2 (splitn_ne_nil 0)
    | cons third further =>
      obtain ⟨-, last, rfl, hlast⟩ := splitn_eq_cons_cons.mp htail
      obtain ⟨rfl, rfl⟩ := List.cons_eq_cons.mp hlast
      rw [← hrest]
      rfl
  · rintro ⟨first, second, hfirst, hsecond, rfl⟩
    obtain ⟨sequence, hsequence⟩ := Option.isSome_iff_exists.mp hsecond
    -- a number has no separator in it, so the cuts fall behind the numbers
    have hfree := notMem_of_parseUnsigned hfirst hdigit hsign
    have hfree' := notMem_of_parseUnsigned hsequence hdigit hsign
    cases rest with
    | none =>
      refine ⟨first, second, [], ?_, hfirst, hsecond, rfl⟩
      exact splitn_eq_cons_cons.mpr ⟨hfree, second, rfl, splitn_eq_singleton 1 hfree'⟩
    | some rest =>
      refine ⟨first, second, [rest], ?_, hfirst, hsecond, rfl⟩
      exact splitn_eq_cons_cons.mpr ⟨hfree, _, rfl,
        splitn_eq_cons_cons.mpr ⟨hfree', rest, rfl, rfl⟩⟩

/-- Cut everywhere: there is no third field exactly when the numbers end the body. -/
theorem readStageFields_split (body : String) (processId : U32) :
    (readStageFields (split separator body) = some (processId, none) ↔
        StageFields separator body processId none) ∧
      ((∃ further, readStageFields (split separator body) = some (processId, some further)) ↔
        ∃ rest, StageFields separator body processId (some rest)) := by
  refine ⟨⟨?_, ?_⟩, ?_, ?_⟩
  · intro hread
    obtain ⟨first, second, further, hcut, hfirst, hsecond, hrest⟩ :=
      readStageFields_eq_some.mp hread
    obtain rfl := List.head?_eq_none_iff.mp hrest
    obtain ⟨-, tail, rfl, htail⟩ := split_eq_cons_cons.mp hcut
    obtain ⟨-, rfl⟩ := split_eq_one.mp htail
    exact ⟨first, tail, hfirst, hsecond, rfl⟩
  · rintro ⟨first, second, hfirst, hsecond, rfl⟩
    obtain ⟨sequence, hsequence⟩ := Option.isSome_iff_exists.mp hsecond
    refine readStageFields_eq_some.mpr ⟨first, second, [], ?_, hfirst, hsecond, rfl⟩
    exact split_eq_cons_cons.mpr ⟨notMem_of_parseUnsigned hfirst hdigit hsign, second, rfl,
      split_eq_singleton (notMem_of_parseUnsigned hsequence hdigit hsign)⟩
  · rintro ⟨third, hread⟩
    obtain ⟨first, second, further, hcut, hfirst, hsecond, hrest⟩ :=
      readStageFields_eq_some.mp hread
    obtain ⟨-, tail, rfl, htail⟩ := split_eq_cons_cons.mp hcut
    cases further with
    | nil => cases hrest
    | cons head further =>
      obtain ⟨-, last, rfl, -⟩ := split_eq_cons_cons.mp htail
      exact ⟨last, first, second, hfirst, hsecond, rfl⟩
  · rintro ⟨rest, first, second, hfirst, hsecond, rfl⟩
    obtain ⟨sequence, hsequence⟩ := Option.isSome_iff_exists.mp hsecond
    obtain ⟨third, further, hthird⟩ := List.exists_cons_of_ne_nil
      (@split_ne_nil separator rest)
    refine ⟨third, readStageFields_eq_some.mpr ⟨first, second, third :: further, ?_, hfirst,
      hsecond, rfl⟩⟩
    refine split_eq_cons_cons.mpr ⟨notMem_of_parseUnsigned hfirst hdigit hsign, _, rfl, ?_⟩
    exact split_eq_cons_cons.mpr ⟨notMem_of_parseUnsigned hsequence hdigit hsign, rest, rfl,
      hthird⟩

end Fields

theorem stripAround_eq_some {start ending name body : String} :
    stripAround start ending name = some body ↔ name = start ++ body ++ ending := by
  simp only [stripAround, Option.bind_eq_bind, Option.bind_eq_some_iff, stripStart_eq_some,
    stripEnding_eq_some]
  constructor
  · rintro ⟨_, rfl, rfl⟩
    rw [String.append_assoc]
  · rintro rfl
    exact ⟨body ++ ending, by rw [String.append_assoc], rfl⟩

/-- A name between the start of atomic staging names and their ending. -/
def atomicName (body : String) : String := ".livefire-rag-atomic-" ++ body ++ ".partial"

/-- A name between the start of the staging names of a result and their ending. -/
def resultName (task : EmbeddingTaskV2) (body : String) : String :=
  "." ++ fileName task.resultPath.val ++ "." ++ body ++ ".partial"

/-- The name is one a result of the directory is staged under. -/
def StagedFor (directory : List String) (name : String) (processId : U32)
    (task : EmbeddingTaskV2) : Prop :=
  parent task.resultPath.val = directory ∧
    ∃ body, name = resultName task body ∧ StageFields '.' body processId none

/-- The search goes on behind a result: it is in another directory, the name does not
fit its own, or the name goes on behind the two numbers. -/
def PassedBy (directory : List String) (name : String) (task : EmbeddingTaskV2) : Prop :=
  parent task.resultPath.val = directory → ∀ body, name = resultName task body →
    ∃ processId rest, StageFields '.' body processId (some rest)

/-- **The staging names of a plan.** A name of the first grammar in a directory of
atomic writes, or one of the second grammar beside a result. The second grammar is
tried when the first one has no part in the name, or reads the two numbers with
nothing behind them; and a result is tried when the search passes by the results of
all earlier tasks. -/
def StagingName (plan : EmbeddingPlanV2) (directory : List String) (name : String)
    (processId : U32) : Prop :=
  (atomicParentAllowed plan directory ∧ ∃ body random, name = atomicName body ∧
    StageFields '-' body processId (some random) ∧ random ≠ "") ∨
  ((atomicParentAllowed plan directory → ∀ body, name = atomicName body →
      ∃ other rest, StageFields '-' body other rest ∧ (rest = none ∨ rest = some "")) ∧
    ∃ before task after, plan.tasks = before ++ task :: after ∧
      StagedFor directory name processId task ∧
      ∀ earlier ∈ before, PassedBy directory name earlier)

/-- One task of the search. -/
theorem resultStageProcessId_cons {directory : List String} {name : String} {processId : U32}
    {task : EmbeddingTaskV2} {tasks : List EmbeddingTaskV2} :
    resultStageProcessId directory name (task :: tasks) = some processId ↔
      StagedFor directory name processId task ∨
        PassedBy directory name task ∧
          resultStageProcessId directory name tasks = some processId := by
  have hread := @readStageFields_split '.' (by decide) (by decide)
  rw [resultStageProcessId]
  split
  · next hdirectory =>
    -- a result of another directory
    have hstaged : ¬ StagedFor directory name processId task := fun h => hdirectory h.1
    have hpassed : PassedBy directory name task := fun h => absurd h hdirectory
    rw [or_iff_right hstaged, and_iff_right hpassed]
  · next hdirectory =>
    rw [not_not] at hdirectory
    cases hstrip : stripAround ("." ++ fileName task.resultPath.val ++ ".") ".partial" name with
    | none =>
      -- the name does not fit this result
      have hfit : ∀ body, name ≠ resultName task body := by
        intro body hname
        have hsome := stripAround_eq_some.mpr hname
        rw [hstrip] at hsome
        cases hsome
      have hstaged : ¬ StagedFor directory name processId task := by
        rintro ⟨-, body, hname, -⟩
        exact hfit body hname
      have hpassed : PassedBy directory name task := fun _ body hname => absurd hname (hfit body)
      rw [or_iff_right hstaged, and_iff_right hpassed]
    | some body =>
      have hname : name = resultName task body := stripAround_eq_some.mp hstrip
      have hbody : ∀ other, name = resultName task other → other = body := by
        intro other hother
        exact (Text.append_cancel (hname.symm.trans hother)).symm
      have hstaged : StagedFor directory name processId task ↔
          StageFields '.' body processId none := by
        refine ⟨?_, fun h => ⟨hdirectory, body, hname, h⟩⟩
        rintro ⟨-, other, hother, h⟩
        rwa [hbody other hother] at h
      have hpassed : PassedBy directory name task ↔
          ∃ other rest, StageFields '.' body other (some rest) := by
        refine ⟨fun h => h hdirectory body hname, fun h _ other hother => ?_⟩
        rwa [hbody other hother]
      rw [hstaged, hpassed, ← (hread body processId).1]
      dsimp only
      rw [Option.bind_eq_bind, Option.bind_eq_some_iff]
      constructor
      · rintro ⟨⟨found, further⟩, hfields, hrest⟩
        dsimp only at hrest
        split at hrest
        · next hnone =>
          rw [Option.pure_def, Option.some.injEq] at hrest
          rw [hnone, hrest] at hfields
          exact Or.inl hfields
        · next hsome =>
          obtain ⟨third, rfl⟩ := Option.ne_none_iff_exists'.mp hsome
          obtain ⟨rest, h⟩ := (hread body found).2.mp ⟨third, hfields⟩
          exact Or.inr ⟨⟨found, rest, h⟩, hrest⟩
      · rintro (hfields | ⟨⟨found, rest, h⟩, hrest⟩)
        · exact ⟨_, hfields, rfl⟩
        · obtain ⟨third, hfields⟩ := (hread body found).2.mpr ⟨rest, h⟩
          exact ⟨_, hfields, hrest⟩

/-- The search through the results, by induction on the tasks that are left. -/
theorem resultStageProcessId_eq_some {directory : List String} {name : String} {processId : U32}
    {tasks : List EmbeddingTaskV2} :
    resultStageProcessId directory name tasks = some processId ↔
      ∃ before task after, tasks = before ++ task :: after ∧
        StagedFor directory name processId task ∧
        ∀ earlier ∈ before, PassedBy directory name earlier := by
  induction tasks with
  | nil => simp [resultStageProcessId]
  | cons task tasks ih =>
    rw [resultStageProcessId_cons, ih]
    constructor
    · rintro (hstaged | ⟨hpassed, before, found, after, rfl, hstaged, hbefore⟩)
      · exact ⟨[], task, tasks, rfl, hstaged, by simp⟩
      · exact ⟨task :: before, found, after, rfl, hstaged,
          List.forall_mem_cons.mpr ⟨hpassed, hbefore⟩⟩
    · rintro ⟨before, found, after, hsplit, hstaged, hbefore⟩
      cases before with
      | nil =>
        obtain ⟨rfl, rfl⟩ := List.cons_eq_cons.mp hsplit
        exact Or.inl hstaged
      | cons first before =>
        obtain ⟨rfl, rfl⟩ := List.cons_eq_cons.mp hsplit
        obtain ⟨hpassed, hbefore⟩ := List.forall_mem_cons.mp hbefore
        exact Or.inr ⟨hpassed, before, found, after, rfl, hstaged, hbefore⟩

/-- **The reader finds exactly the staging names.** -/
theorem internalEmbeddingStageProcessId_eq_some {plan : EmbeddingPlanV2} {relative : String}
    {processId : U32} :
    internalEmbeddingStageProcessId plan relative = some processId ↔
      StagingName plan (parent relative) (fileName relative) processId := by
  have hread := @readStageFields_splitn '-' (by decide) (by decide)
  rw [StagingName, ← resultStageProcessId_eq_some, internalEmbeddingStageProcessId]
  generalize parent relative = directory
  generalize fileName relative = name
  dsimp only
  by_cases hallowed : atomicParentAllowed plan directory = true
  · rw [if_pos hallowed]
    simp only [hallowed, true_and, forall_const]
    cases hstrip : stripAround ".livefire-rag-atomic-" ".partial" name with
    | none =>
      have hfit : ∀ body, name ≠ atomicName body := by
        intro body hname
        have hsome := stripAround_eq_some.mpr hname
        rw [hstrip] at hsome
        cases hsome
      simp [hfit]
    | some body =>
      have hname : name = atomicName body := stripAround_eq_some.mp hstrip
      have hbody : ∀ other, name = atomicName other → other = body := fun other hother =>
        (Text.append_cancel (hname.symm.trans hother)).symm
      dsimp only
      rw [Option.bind_eq_bind, Option.bind_eq_some_iff]
      constructor
      · rintro ⟨⟨found, rest⟩, hfields, hresult⟩
        have hfound := (hread body found rest).mp hfields
        dsimp only at hresult
        split at hresult
        · next hrandom =>
          rw [Option.pure_def, Option.some.injEq] at hresult
          obtain ⟨random, rfl, hne⟩ : ∃ random, rest = some random ∧ random ≠ "" := by
            cases rest with
            | none => simp at hrandom
            | some random => exact ⟨random, rfl, by simpa using hrandom⟩
          exact Or.inl ⟨body, random, hname, hresult ▸ hfound, hne⟩
        · next hrandom =>
          refine Or.inr ⟨fun other hother => ?_, hresult⟩
          rw [hbody other hother]
          refine ⟨found, rest, hfound, ?_⟩
          cases rest with
          | none => exact Or.inl rfl
          | some random => exact Or.inr (by simpa using hrandom)
      · rintro (⟨other, random, hother, hfields, hne⟩ | ⟨hpassed, hresult⟩)
        · rw [hbody other hother] at hfields
          refine ⟨_, (hread body processId (some random)).mpr hfields, ?_⟩
          have hrandom : (some random).any (fun rest => decide (rest ≠ "")) = true := by simpa using hne
          dsimp only
          rw [if_pos hrandom]
          rfl
        · obtain ⟨found, rest, hfields, hrest⟩ := hpassed body hname
          refine ⟨_, (hread body found rest).mpr hfields, ?_⟩
          have hrandom : ¬ rest.any (fun rest => decide (rest ≠ "")) = true := by
            rcases hrest with rfl | rfl <;> simp
          dsimp only
          rw [if_neg hrandom]
          exact hresult
  · rw [if_neg hallowed]
    simp [hallowed]

theorem head?_append_of_some {s t : String} {c : Char} (h : s.toList.head? = some c) :
    (s ++ t).toList.head? = some c := by
  rw [String.toList_append, List.head?_append, h]
  rfl

/-- Every staging name starts with a dot. -/
theorem StagingName.head? {plan : EmbeddingPlanV2} {directory : List String} {name : String}
    {processId : U32} (h : StagingName plan directory name processId) :
    name.toList.head? = some '.' := by
  rcases h with ⟨-, body, random, hname, -⟩ | ⟨-, before, task, after, -, ⟨-, body, hname, -⟩, -⟩
  · unfold atomicName at hname
    subst hname
    exact head?_append_of_some (head?_append_of_some (by decide))
  · unfold resultName at hname
    subst hname
    exact head?_append_of_some (head?_append_of_some (head?_append_of_some
      (head?_append_of_some (by decide))))

/-! ### What the walk does -/

section Walking

variable (host : CoverageHost) (plan : EmbeddingPlanV2)

/-- An entry that does not end the walk. -/
def Undisturbed : TreeEntry → Prop
  | .file relative => ∀ processId, internalEmbeddingStageProcessId plan relative.val =
      some processId → host.processIsActive processId = false → host.remove relative.val = .removed
  | _ => False

/-- The name of an entry that is a file and not a staging file. -/
def countedFile : TreeEntry → Option String
  | .file relative =>
    if internalEmbeddingStageProcessId plan relative.val = none then some relative.val else none
  | _ => none

def countedFiles (entries : List TreeEntry) : Finset String :=
  (entries.filterMap (countedFile plan)).toFinset

variable {host plan}

/-- **One entry**: whether it ends the walk, what it counts, what it removes. -/
theorem visit_spec (walk : Walk) (entry : TreeEntry) :
    ((visit host plan walk entry).1 = .ok () ↔ Undisturbed host plan entry) ∧
      (visit host plan walk entry).2.actual = walk.actual ∪ countedFiles plan [entry] ∧
      ∀ name ∈ (visit host plan walk entry).2.removed, name ∈ walk.removed ∨
        ∃ processId, internalEmbeddingStageProcessId plan name = some processId := by
  have hold : ∀ name ∈ walk.removed, name ∈ walk.removed ∨
      ∃ processId, internalEmbeddingStageProcessId plan name = some processId :=
    fun name hname => Or.inl hname
  cases entry with
  | file relative =>
    cases hstage : internalEmbeddingStageProcessId plan relative.val with
    | none =>
      have hcounted : countedFiles plan [.file relative] = {relative.val} := by
        simp [countedFiles, countedFile, hstage]
      rw [hcounted, visit, hstage]
      refine ⟨?_, Finset.insert_eq _ _ |>.trans (Finset.union_comm _ _), hold⟩
      simp [Undisturbed, hstage]
    | some processId =>
      have hcounted : walk.actual ∪ countedFiles plan [.file relative] = walk.actual := by
        simp [countedFiles, countedFile, hstage]
      have hnew : ∀ name ∈ walk.removed ++ [relative.val], name ∈ walk.removed ∨
          ∃ processId, internalEmbeddingStageProcessId plan name = some processId := by
        intro name hname
        rcases List.mem_append.mp hname with hname | hname
        · exact Or.inl hname
        · rw [List.mem_singleton.mp hname]
          exact Or.inr ⟨processId, hstage⟩
      have hundisturbed : Undisturbed host plan (.file relative) ↔
          (host.processIsActive processId = false → host.remove relative.val = .removed) := by
        simp only [Undisturbed, hstage, Option.some.injEq, forall_eq']
      rw [hcounted, hundisturbed, visit, hstage]
      dsimp only
      split
      · next hactive => exact ⟨by simp [hactive], rfl, hold⟩
      · next hactive =>
        rw [Bool.not_eq_true] at hactive
        cases hremove : host.remove relative.val with
        | removed => exact ⟨by simp, rfl, hnew⟩
        | removedUnsynced => exact ⟨by simp [hactive], rfl, hnew⟩
        | failed => exact ⟨by simp [hactive], rfl, hold⟩
  -- the other entries end the walk as they find it
  | notUtf8 => exact ⟨by simp [visit, Undisturbed], (Finset.union_empty _).symm, hold⟩
  | symlink => exact ⟨by simp [visit, Undisturbed], (Finset.union_empty _).symm, hold⟩
  | unsupported => exact ⟨by simp [visit, Undisturbed], (Finset.union_empty _).symm, hold⟩
  | unreadable => exact ⟨by simp [visit, Undisturbed], (Finset.union_empty _).symm, hold⟩

theorem countedFiles_cons (entry : TreeEntry) (entries : List TreeEntry) :
    countedFiles plan (entry :: entries) =
      countedFiles plan [entry] ∪ countedFiles plan entries := by
  rw [countedFiles, countedFiles, countedFiles, ← List.toFinset_append, ← List.filterMap_append]
  rfl

/-- **The walk**, by induction on the entries: it ends well when no entry ends it, and
has then counted all that count; whatever it removed was a staging file. -/
theorem walkTree_spec (entries : List TreeEntry) (walk : Walk) :
    ((walkTree host plan walk entries).1 = .ok () ↔
        ∀ entry ∈ entries, Undisturbed host plan entry) ∧
      ((walkTree host plan walk entries).1 = .ok () →
        (walkTree host plan walk entries).2.actual = walk.actual ∪ countedFiles plan entries) ∧
      ∀ name ∈ (walkTree host plan walk entries).2.removed, name ∈ walk.removed ∨
        ∃ processId, internalEmbeddingStageProcessId plan name = some processId := by
  induction entries generalizing walk with
  | nil => exact ⟨by simp [walkTree], fun _ => (Finset.union_empty _).symm, fun _ => Or.inl⟩
  | cons entry entries ih =>
    obtain ⟨hok, hactual, hremoved⟩ := @visit_spec host plan walk entry
    rw [List.forall_mem_cons, walkTree]
    split
    · next next hvisit =>
      rw [hvisit] at hok hactual hremoved
      obtain ⟨ihok, ihactual, ihremoved⟩ := ih next
      refine ⟨?_, fun hrun => ?_, fun name hname => ?_⟩
      · rw [ihok]
        exact (and_iff_right (hok.mp rfl)).symm
      · rw [ihactual hrun, hactual, countedFiles_cons entry entries, Finset.union_assoc]
      · exact (ihremoved name hname).elim (hremoved name) Or.inr
    · next error next hvisit =>
      rw [hvisit] at hok hremoved
      refine ⟨?_, fun hrun => ?_, hremoved⟩
      · simp only [reduceCtorEq, false_iff] at hok ⊢
        exact fun hall => hok hall.1
      · cases hrun

/-- **When the check succeeds**: nothing ends the walk, and the files that are not
staging files are those of the plan. -/
theorem validateEmbeddingArtifactCoverageV2_eq_ok {requireManifest : Bool}
    {entries : List TreeEntry} :
    (validateEmbeddingArtifactCoverageV2 host plan requireManifest entries).1 = .ok () ↔
      (∀ entry ∈ entries, Undisturbed host plan entry) ∧
        countedFiles plan entries = expectedArtifacts plan requireManifest := by
  obtain ⟨hok, hactual, -⟩ := @walkTree_spec host plan entries ⟨∅, []⟩
  rw [← hok, validateEmbeddingArtifactCoverageV2]
  split
  · next error walk hrun =>
    rw [hrun]
    simp
  · next walk hrun =>
    rw [hrun] at hactual
    rw [hrun]
    have hcounted : walk.actual = countedFiles plan entries := by
      simpa using hactual rfl
    rw [hcounted]
    split <;> simp_all

/-- Whatever the check removes is a staging file, also when it fails. -/
theorem stage_of_removed {requireManifest : Bool} {entries : List TreeEntry} {name : String}
    (h : name ∈ (validateEmbeddingArtifactCoverageV2 host plan requireManifest entries).2) :
    ∃ processId, internalEmbeddingStageProcessId plan name = some processId := by
  obtain ⟨-, -, hremoved⟩ := @walkTree_spec host plan entries ⟨∅, []⟩
  rw [validateEmbeddingArtifactCoverageV2] at h
  have hname : name ∈ (walkTree host plan ⟨∅, []⟩ entries).2.removed := by
    split at h
    · next error walk hrun =>
      rw [hrun]
      exact h
    · next walk hrun =>
      rw [hrun]
      split at h <;> exact h
  exact (hremoved name hname).resolve_left (List.not_mem_nil)

end Walking

/-! ### The plans whose files are left alone -/

/-- The names the three files of a finished directory have. -/
def finishedNames : List String := [manifestFile, summaryFile, embeddingProfileFile]

/-- The names of everything the check may expect of a plan. -/
def plannedNames (plan : EmbeddingPlanV2) : List String :=
  finishedNames ++ plan.tasks.flatMap fun task =>
    [task.resultPath.val, task.receiptPath.val, reportKeyText task.taskId]

/-- The check tells the planned files apart, takes none of them for a staging file,
removes none of them, and on a tree it can walk and clear of staging files it succeeds
exactly when the files that are not staging files are the planned ones. -/
structure KeepsPlanned (plan : EmbeddingPlanV2) : Prop where
  nodup : (plannedNames plan).Nodup
  noStaging : ∀ name ∈ plannedNames plan, internalEmbeddingStageProcessId plan name = none
  kept : ∀ host requireManifest entries, ∀ name ∈ plannedNames plan,
    name ∉ (validateEmbeddingArtifactCoverageV2 host plan requireManifest entries).2
  exact : ∀ host requireManifest entries,
    (validateEmbeddingArtifactCoverageV2 host plan requireManifest entries).1 = .ok () ↔
      (∀ entry ∈ entries, Undisturbed host plan entry) ∧
        countedFiles plan entries = expectedArtifacts plan requireManifest

/-- The result and receipt paths of a plan stay clear of the other names that mean
something to the check. -/
structure NamesApart (plan : EmbeddingPlanV2) : Prop where
  finished : ∀ path ∈ outputPaths plan.tasks, path.val ∉ finishedNames
  reports : ReportsApart plan.tasks
  staging : ∀ path ∈ outputPaths plan.tasks, ∀ processId,
    ¬ StagingName plan (parent path.val) (fileName path.val) processId

/-- A name in the root whose text does not start with a dot is no staging name. -/
theorem stage_eq_none_of_head? {plan : EmbeddingPlanV2} {name : String}
    (h : (fileName name).toList.head? ≠ some '.') :
    internalEmbeddingStageProcessId plan name = none := by
  cases hstage : internalEmbeddingStageProcessId plan name with
  | none => rfl
  | some processId =>
    exact absurd (internalEmbeddingStageProcessId_eq_some.mp hstage).head? h

/-- A report is a file in a directory of its own. -/
theorem split_reportKeyText (id : Digest) :
    split '/' (reportKeyText id.val) = ["reports", id.val ++ ".json"] := by
  have hjoined : reportKeyText id.val = joined '/' "reports" (id.val ++ ".json") := by
    apply String.toList_injective
    rw [toList_joined, reportKeyText, String.toList_append, String.toList_append,
      String.toList_append, List.append_assoc]
    rfl
  have hfree : '/' ∉ (id.val ++ ".json").toList := by
    rw [String.toList_append, List.mem_append, not_or]
    exact ⟨fun hmem => (id.property.2 _ hmem).isSegmentChar.2.2.2 rfl, by decide⟩
  rw [hjoined, split_append_separator (by decide), split_eq_singleton hfree]

/-- The file of a report is named after its task. -/
theorem fileName_reportKeyText (id : Digest) :
    fileName (reportKeyText id.val) = id.val ++ ".json" := by
  rw [fileName, split_reportKeyText]
  rfl

/-- The names of a finished directory are distinct, lie in no directory, and start with no dot. -/
theorem finishedNames_plain : finishedNames.Nodup ∧ ∀ name ∈ finishedNames,
    '/' ∉ name.toList ∧ (fileName name).toList.head? ≠ some '.' ∧
      ∀ segment ∈ split '/' name, segment ≠ "" ∧ segment ≠ "." ∧ segment ≠ ".." := by
  decide +kernel

section Apart

variable {prims : Primitives} {plan : EmbeddingPlanV2}

/-- Neither the reports nor the files of a finished directory have staging names. -/
theorem stage_eq_none_of_own (hvalid : plan.validate prims = .ok ()) {name : String}
    (h : name ∈ finishedNames ∨ ∃ task ∈ plan.tasks, name = reportKeyText task.taskId) :
    internalEmbeddingStageProcessId plan name = none := by
  refine stage_eq_none_of_head? ?_
  rcases h with h | ⟨task, htask, rfl⟩
  · exact (finishedNames_plain.2 name h).2.1
  · -- the file is named after a digest, and no hexadecimal digit is a dot
    have hid := ((EmbeddingPlanV2.tasksAccepted hvalid).accepted task htask).id
    generalize task.expectedId prims plan.identityContext = id at hid
    obtain ⟨hlength, hhex⟩ := id.property
    rw [hid, fileName_reportKeyText]
    cases hchars : id.val.toList with
    | nil => simp [hchars] at hlength
    | cons c cs =>
      rw [head?_append_of_some (congrArg List.head? hchars)]
      intro hdot
      obtain rfl : c = '.' := Option.some.inj hdot
      have hc := hhex '.' (by rw [hchars]; exact List.mem_cons_self ..)
      exact absurd hc (by decide)

/-- The planned names are distinct for the plans that keep to their own names. -/
theorem plannedNames_nodup_iff (hvalid : plan.validate prims = .ok ()) :
    (plannedNames plan).Nodup ↔
      (∀ path ∈ outputPaths plan.tasks, path.val ∉ finishedNames) ∧ ReportsApart plan.tasks := by
  have haccepted := EmbeddingPlanV2.tasksAccepted hvalid
  have houtputs := outputNames_nodup_iff haccepted.ids_nodup haccepted.paths_nodup
  rw [plannedNames, List.nodup_append, ← houtputs]
  constructor
  · rintro ⟨-, hnodup, hdisjoint⟩
    refine ⟨fun path hpath hmem => ?_, hnodup⟩
    obtain ⟨task, htask, hpath⟩ := List.mem_flatMap.mp hpath
    refine hdisjoint _ hmem path.val (List.mem_flatMap.mpr ⟨task, htask, ?_⟩) rfl
    simp only [List.mem_cons, List.not_mem_nil, or_false] at hpath ⊢
    rcases hpath with rfl | rfl
    · exact Or.inl rfl
    · exact Or.inr (Or.inl rfl)
  · rintro ⟨hpaths, hnodup⟩
    refine ⟨finishedNames_plain.1, hnodup, ?_⟩
    rintro name hname other hother rfl
    obtain ⟨task, htask, hother⟩ := List.mem_flatMap.mp hother
    have hpath : ∀ path ∈ [task.resultPath, task.receiptPath], path ∈ outputPaths plan.tasks :=
      fun path hpath => List.mem_flatMap.mpr ⟨task, htask, hpath⟩
    simp only [List.mem_cons, List.not_mem_nil, or_false] at hother
    rcases hother with rfl | rfl | rfl
    · exact hpaths _ (hpath _ (by simp)) hname
    · exact hpaths _ (hpath _ (by simp)) hname
    · -- a report is in a directory
      refine (finishedNames_plain.2 _ hname).1 ?_
      rw [reportKeyText, String.toList_append, String.toList_append]
      exact List.mem_append_left _ (List.mem_append_left _ (by decide))

/-- **Which plans the check leaves alone**: those whose result and receipt paths are
no name of a finished directory, no name of a report and no staging name. -/
theorem keepsPlanned_iff (hvalid : plan.validate prims = .ok ()) :
    KeepsPlanned plan ↔ NamesApart plan := by
  have hpaths : ∀ path ∈ outputPaths plan.tasks, path.val ∈ plannedNames plan := by
    intro path hpath
    obtain ⟨task, htask, hpath⟩ := List.mem_flatMap.mp hpath
    refine List.mem_append_right _ (List.mem_flatMap.mpr ⟨task, htask, ?_⟩)
    simp only [List.mem_cons, List.not_mem_nil, or_false] at hpath
    rcases hpath with rfl | rfl <;> simp
  constructor
  · intro h
    obtain ⟨hfinished, hreports⟩ := (plannedNames_nodup_iff hvalid).mp h.nodup
    refine ⟨hfinished, hreports, fun path hpath processId hstaging => ?_⟩
    have hsome := internalEmbeddingStageProcessId_eq_some.mpr hstaging
    rw [h.noStaging _ (hpaths path hpath)] at hsome
    cases hsome
  · intro h
    have hnone : ∀ name ∈ plannedNames plan, internalEmbeddingStageProcessId plan name = none := by
      intro name hname
      rcases List.mem_append.mp hname with hname | hname
      · exact stage_eq_none_of_own hvalid (Or.inl hname)
      · obtain ⟨task, htask, hname⟩ := List.mem_flatMap.mp hname
        have hown : ∀ path ∈ [task.resultPath, task.receiptPath],
            internalEmbeddingStageProcessId plan path.val = none := by
          intro path hpath
          rw [Option.eq_none_iff_forall_not_mem]
          intro processId hsome
          exact h.staging path (List.mem_flatMap.mpr ⟨task, htask, hpath⟩) processId
            (internalEmbeddingStageProcessId_eq_some.mp hsome)
        simp only [List.mem_cons, List.not_mem_nil, or_false] at hname
        rcases hname with rfl | rfl | rfl
        · exact hown _ (by simp)
        · exact hown _ (by simp)
        · exact stage_eq_none_of_own hvalid (Or.inr ⟨task, htask, rfl⟩)
    refine ⟨(plannedNames_nodup_iff hvalid).mpr ⟨h.finished, h.reports⟩, hnone, ?_,
      fun _ _ _ => validateEmbeddingArtifactCoverageV2_eq_ok⟩
    intro host requireManifest entries name hname hremoved
    obtain ⟨processId, hsome⟩ := stage_of_removed hremoved
    rw [hnone name hname] at hsome
    cases hsome

end Apart

/-- The sample plan keeps to its own names, so the check leaves its files alone. -/
theorem samplePlan_keepsPlanned : KeepsPlanned samplePlan := by
  have hnone : ∀ path ∈ outputPaths samplePlan.tasks,
      internalEmbeddingStageProcessId samplePlan path.val = none := by decide +kernel
  refine (keepsPlanned_iff samplePlan_validate).mpr ⟨by decide +kernel, ?_, ?_⟩
  · show ∀ task ∈ samplePlan.tasks, ∀ other ∈ samplePlan.tasks, _ ∧ _
    decide +kernel
  · intro path hpath processId hstaging
    have hsome := internalEmbeddingStageProcessId_eq_some.mpr hstaging
    rw [hnone path hpath] at hsome
    cases hsome

/-! ### A plan that stages a result -/

/-- A result path that reads like a staging file of process 1. -/
def stagedPath : SafeRelativePath := ⟨".livefire-rag-atomic-1-2-x.partial", by decide⟩

/-- The sample plan with the results of its first task there. -/
def stagedPlan : EmbeddingPlanV2 :=
  EmbeddingPlanV2.withDigest samplePrimitives { samplePlan with
    tasks := samplePlan.tasks.map fun task =>
      if task.ordinalStart = 0 then { task with resultPath := stagedPath } else task }

/-- What the checks of the tasks read of a plan with other tasks. -/
theorem withDigest_tasks (prims : Primitives) (plan : EmbeddingPlanV2)
    (tasks : List EmbeddingTaskV2) :
    (EmbeddingPlanV2.withDigest prims { plan with tasks := tasks }).limits = plan.limits ∧
      (EmbeddingPlanV2.withDigest prims { plan with tasks := tasks }).identityContext =
        plan.identityContext ∧
      (EmbeddingPlanV2.withDigest prims { plan with tasks := tasks }).tasks = tasks ∧
      (EmbeddingPlanV2.withDigest prims { plan with tasks := tasks }).documentCount =
        plan.documentCount := ⟨rfl, rfl, rfl, rfl⟩

theorem stagedPlan_tasksAccepted : TasksAccepted samplePrimitives stagedPlan.limits
    stagedPlan.identityContext stagedPlan.tasks stagedPlan.documentCount := by
  have haccepted := EmbeddingPlanV2.tasksAccepted samplePlan_validate
  -- of the checks of a task, none looks at the result path
  have hmoved : ∀ task : EmbeddingTaskV2, ∀ path,
      TaskAccepted samplePrimitives samplePlan.limits samplePlan.identityContext task →
        TaskAccepted samplePrimitives samplePlan.limits samplePlan.identityContext
          { task with resultPath := path } :=
    fun task path h => ⟨h.start_safe, h.end_safe, h.tokens_safe, h.slices, h.id, h.start_lt_end,
      h.rows_sum, h.rows_le, h.rows_le_tokens, h.tokens_le, h.tokens_sum, h.maximum,
      h.maximum_le_input, h.maximum_le_tokens⟩
  generalize hmove : (fun task : EmbeddingTaskV2 =>
    if task.ordinalStart = 0 then { task with resultPath := stagedPath } else task) = move
  have hfields : ∀ task, (move task).taskId = task.taskId ∧
      (move task).ordinalStart = task.ordinalStart ∧ (move task).ordinalEnd = task.ordinalEnd := by
    intro task
    rw [← hmove]
    dsimp only
    split <;> exact ⟨rfl, rfl, rfl⟩
  have hpaths : (outputPaths (samplePlan.tasks.map move)).Nodup := by
    rw [← hmove]
    decide +kernel
  obtain ⟨hlimits, hidentity, htasks, hcount⟩ :=
    withDigest_tasks samplePrimitives samplePlan (samplePlan.tasks.map move)
  rw [stagedPlan, hmove, hlimits, hidentity, htasks, hcount]
  refine ⟨fun task htask => ?_, ?_, ?_, hpaths⟩
  · obtain ⟨original, horiginal, rfl⟩ := List.mem_map.mp htask
    rw [← hmove]
    dsimp only
    split
    · exact hmoved _ _ (haccepted.accepted _ horiginal)
    · exact haccepted.accepted _ horiginal
  · rw [Tiling.tiles_map]
    exact haccepted.tiles.congr (fun task _ => congrArg Fin.val (hfields task).2.1)
      fun task _ => congrArg Fin.val (hfields task).2.2
  · have hids : (samplePlan.tasks.map move).map (·.taskId) = samplePlan.tasks.map (·.taskId) := by
      rw [List.map_map]
      exact List.map_congr_left fun task _ => (hfields task).1
    rw [hids]
    exact haccepted.ids_nodup

/-- The files of the given names, where they name files. -/
def filesOf (names : List String) : List TreeEntry :=
  names.filterMap fun name =>
    if h : ∀ segment ∈ split '/' name, segment ≠ "" ∧ segment ≠ "." ∧ segment ≠ ".." then
      some (.file ⟨name, h⟩)
    else none

theorem filesOf_eq {names : List String}
    (h : ∀ name ∈ names, ∀ segment ∈ split '/' name, segment ≠ "" ∧ segment ≠ "." ∧ segment ≠ "..") :
    ∃ paths : List TreePath, filesOf names = paths.map .file ∧ paths.map (·.val) = names := by
  induction names with
  | nil => exact ⟨[], rfl, rfl⟩
  | cons name names ih =>
    obtain ⟨hname, hnames⟩ := List.forall_mem_cons.mp h
    obtain ⟨paths, hfiles, hpaths⟩ := ih hnames
    refine ⟨⟨name, hname⟩ :: paths, ?_, ?_⟩
    · rw [filesOf, List.filterMap_cons_some (dif_pos hname), ← filesOf, hfiles, List.map_cons]
    · rw [List.map_cons, hpaths]

theorem walkTree_cons_ok {host : CoverageHost} {plan : EmbeddingPlanV2} {walk next : Walk}
    {entry : TreeEntry} {entries : List TreeEntry}
    (h : visit host plan walk entry = (.ok (), next)) :
    walkTree host plan walk (entry :: entries) = walkTree host plan next entries := by
  rw [walkTree, h]

/-- Where no process runs and every file can be removed, the walk removes exactly the
staging files. -/
theorem walkTree_removing (plan : EmbeddingPlanV2) (paths : List TreePath) (walk : Walk) :
    walkTree ⟨fun _ => false, fun _ => .removed⟩ plan walk (paths.map .file) =
      (.ok (), ⟨walk.actual ∪ countedFiles plan (paths.map .file),
        walk.removed ++ (paths.map (·.val)).filter
          fun name => (internalEmbeddingStageProcessId plan name).isSome⟩) := by
  induction paths generalizing walk with
  | nil => simp [walkTree, countedFiles]
  | cons path paths ih =>
    rw [List.map_cons, List.map_cons, countedFiles_cons]
    cases hstage : internalEmbeddingStageProcessId plan path.val with
    | none =>
      have hvisit : visit ⟨fun _ => false, fun _ => .removed⟩ plan walk (.file path) =
          (.ok (), { walk with actual := insert path.val walk.actual }) := by
        rw [visit, hstage]
      have hcounted : countedFiles plan [.file path] = {path.val} := by
        simp [countedFiles, countedFile, hstage]
      rw [walkTree_cons_ok hvisit, ih, List.filter_cons_of_neg (by simp [hstage]), hcounted, Finset.insert_eq,
        Finset.union_comm {path.val} walk.actual, Finset.union_assoc]
    | some processId =>
      have hvisit : visit ⟨fun _ => false, fun _ => .removed⟩ plan walk (.file path) =
          (.ok (), { walk with removed := walk.removed ++ [path.val] }) := by
        rw [visit, hstage]
        rfl
      have hcounted : countedFiles plan [.file path] = ∅ := by
        simp [countedFiles, countedFile, hstage]
      rw [walkTree_cons_ok hvisit, ih, List.filter_cons_of_pos (by simp [hstage]), hcounted, Finset.empty_union,
        List.append_assoc]
      rfl

theorem stagedPlan_validate : stagedPlan.validate samplePrimitives = .ok () := by
  have hmetadata : validateTokenCountMetadata stagedPlan = .ok () := by decide +kernel
  obtain ⟨h1, h2, h3, h4, h5, h6, h7, h8, h9, -⟩ :=
    EmbeddingPlanV2.validate_eq_ok.mp samplePlan_validate
  exact EmbeddingPlanV2.validate_eq_ok.mpr ⟨h1, h2, h3, h4, h5, h6, h7, h8, h9,
    (validateTokenCountMetadata_eq_ok.mp hmetadata).1, stagedPlan_tasksAccepted,
    EmbeddingPlanV2.digest_withDigest samplePrimitives _⟩

/-- The names of the plan are names of files. -/
theorem plannedNames_segments {prims : Primitives} {plan : EmbeddingPlanV2}
    (hvalid : plan.validate prims = .ok ()) :
    ∀ name ∈ plannedNames plan, ∀ segment ∈ split '/' name,
      segment ≠ "" ∧ segment ≠ "." ∧ segment ≠ ".." := by
  intro name hname
  rcases List.mem_append.mp hname with hname | hname
  · exact (finishedNames_plain.2 name hname).2.2
  · obtain ⟨task, htask, hname⟩ := List.mem_flatMap.mp hname
    simp only [List.mem_cons, List.not_mem_nil, or_false] at hname
    rcases hname with rfl | rfl | rfl
    · exact (treePath task.resultPath).property
    · exact (treePath task.receiptPath).property
    · rw [((EmbeddingPlanV2.tasksAccepted hvalid).accepted task htask).id, split_reportKeyText]
      generalize task.expectedId prims plan.identityContext = id
      have hlength : (id.val ++ ".json").toList.length = 69 := by
        rw [String.toList_append, List.length_append, id.property.1]
        rfl
      have hother : ∀ short : String, short.toList.length < 69 → id.val ++ ".json" ≠ short := by
        rintro _ hshort rfl
        omega
      simp only [List.forall_mem_cons, List.not_mem_nil, false_imp_iff, implies_true, and_true]
      exact ⟨by decide, hother _ (by decide), hother _ (by decide), hother _ (by decide)⟩

/-- The plan is valid and the directory holds its files and no others. Process 1 is
gone: the check removes a result of the plan, and then misses it. -/
theorem staged_result_removed :
    stagedPlan.validate samplePrimitives = .ok () ∧
      stagedPath.val ∈ plannedNames stagedPlan ∧
      (filesOf (plannedNames stagedPlan)).length = (plannedNames stagedPlan).length ∧
      validateEmbeddingArtifactCoverageV2 ⟨fun _ => false, fun _ => .removed⟩ stagedPlan true
        (filesOf (plannedNames stagedPlan)) =
      (.error (.accountingClosure "embedding artifact coverage differs from plan"),
        [stagedPath.val]) ∧
      ¬ KeepsPlanned stagedPlan := by
  have houtputs : ∀ path ∈ outputPaths stagedPlan.tasks,
      (internalEmbeddingStageProcessId stagedPlan path.val).isSome =
        decide (path.val = stagedPath.val) := by decide +kernel
  have hplanned : stagedPath.val ∈ plannedNames stagedPlan := by decide +kernel
  have hstaged : (internalEmbeddingStageProcessId stagedPlan stagedPath.val).isSome = true := by
    decide +kernel
  have hstage : ∀ name ∈ plannedNames stagedPlan,
      (internalEmbeddingStageProcessId stagedPlan name).isSome = decide (name = stagedPath.val) := by
    have hown : ∀ name, internalEmbeddingStageProcessId stagedPlan name = none →
        (internalEmbeddingStageProcessId stagedPlan name).isSome =
          decide (name = stagedPath.val) := by
      intro name hnone
      rw [hnone]
      refine (decide_eq_false ?_).symm
      rintro rfl
      rw [hnone] at hstaged
      cases hstaged
    intro name hname
    rcases List.mem_append.mp hname with hname | hname
    · exact hown name (stage_eq_none_of_own stagedPlan_validate (Or.inl hname))
    · obtain ⟨task, htask, hname⟩ := List.mem_flatMap.mp hname
      have hpath : ∀ path ∈ [task.resultPath, task.receiptPath], path ∈ outputPaths stagedPlan.tasks :=
        fun path hpath => List.mem_flatMap.mpr ⟨task, htask, hpath⟩
      simp only [List.mem_cons, List.not_mem_nil, or_false] at hname
      rcases hname with rfl | rfl | rfl
      · exact houtputs _ (hpath _ (by simp))
      · exact houtputs _ (hpath _ (by simp))
      · exact hown _ (stage_eq_none_of_own stagedPlan_validate (Or.inr ⟨task, htask, rfl⟩))
  obtain ⟨paths, hfiles, hpaths⟩ := filesOf_eq (plannedNames_segments stagedPlan_validate)
  have hremoved : (plannedNames stagedPlan).filter
      (fun name => (internalEmbeddingStageProcessId stagedPlan name).isSome) =
        [stagedPath.val] := by
    rw [List.filter_congr hstage]
    decide +kernel
  have hrun : validateEmbeddingArtifactCoverageV2 ⟨fun _ => false, fun _ => .removed⟩ stagedPlan
      true (filesOf (plannedNames stagedPlan)) =
      (.error (.accountingClosure "embedding artifact coverage differs from plan"),
        [stagedPath.val]) := by
    have hdiffers : countedFiles stagedPlan (paths.map .file) ≠ expectedArtifacts stagedPlan true := by
      intro heq
      have hexpected : stagedPath.val ∈ expectedArtifacts stagedPlan true :=
        List.mem_toFinset.mpr hplanned
      rw [← heq, countedFiles, List.mem_toFinset, List.mem_filterMap] at hexpected
      obtain ⟨entry, hentry, hcounted⟩ := hexpected
      obtain ⟨path, -, rfl⟩ := List.mem_map.mp hentry
      obtain ⟨hnone, hval⟩ := Option.ite_none_right_eq_some.mp hcounted
      rw [← Option.some.inj hval, hnone] at hstaged
      cases hstaged
    rw [validateEmbeddingArtifactCoverageV2, hfiles, walkTree_removing, hpaths, hremoved]
    simp only [Finset.empty_union, List.nil_append, if_pos hdiffers]
  have hlength : (filesOf (plannedNames stagedPlan)).length = (plannedNames stagedPlan).length := by
    rw [hfiles, List.length_map, ← congrArg List.length hpaths, List.length_map]
  refine ⟨stagedPlan_validate, hplanned, hlength, hrun, fun hkeeps => ?_⟩
  have hkept := hkeeps.kept ⟨fun _ => false, fun _ => .removed⟩ true
    (filesOf (plannedNames stagedPlan)) _ hplanned
  rw [hrun] at hkept
  exact hkept (List.mem_singleton_self _)

end LivefireRag.Builder
