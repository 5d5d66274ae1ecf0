import BuildPipeline.Plan.Bridge
import BuildPipeline.Proofs.Acyclicity
import BuildPipeline.Proofs.Ordering

/-! A build needs the kept builds at the ends of paths through pruned ones. The
search for them remembers what lies behind each pruned build, and a memo that
holds nothing but true findings changes no answer. -/

namespace BuildPipeline
open Relation

theorem mem_union {α : Type _} [DecidableEq α] {left right : List α} {item : α} :
    item ∈ union left right ↔ item ∈ left ∨ item ∈ right := by
  simp only [union, List.mem_append, List.mem_filter, decide_eq_true_eq]
  by_cases known : item ∈ left <;> simp [known]

theorem nodup_union {α : Type _} [DecidableEq α] {left right : List α}
    (unique : left.Nodup) (distinct : right.Nodup) : (union left right).Nodup := by
  refine List.nodup_append.2 ⟨unique, distinct.filter _, ?_⟩
  intro item first other second same
  have apart := (List.mem_filter.1 second).2
  simp [← same, first] at apart

/-- Exactly the texts with a property, each once. -/
structure Collects (found : List Text) (expected : Text → Prop) : Prop where
  unique : found.Nodup
  mem_iff : ∀ text, text ∈ found ↔ expected text

theorem Collects.congr {found : List Text} {expected other : Text → Prop} (all : Collects found expected)
    (same : ∀ text, expected text ↔ other text) : Collects found other :=
  ⟨all.unique, fun text => (all.mem_iff text).trans (same text)⟩

theorem foldl_collects {Good : BridgeMemo → Prop} {offers : Text → Text → Prop}
    (visit : BridgeMemo → Text → List Text × BridgeMemo) (dependencies : List Text)
    (visits : ∀ dependency ∈ dependencies, ∀ memo, Good memo →
      Good (visit memo dependency).2 ∧ Collects (visit memo dependency).1 (offers dependency))
    (found : List Text) (unique : found.Nodup) (memo : BridgeMemo) (good : Good memo) :
    let result := dependencies.foldl
      (fun (found, memo) dependency =>
        let (more, memo) := visit memo dependency
        (union found more, memo))
      (found, memo)
    Good result.2 ∧
      Collects result.1 fun text => text ∈ found ∨ ∃ dependency ∈ dependencies, offers dependency text := by
  induction dependencies generalizing found memo with
  | nil => exact ⟨good, unique, by simp⟩
  | cons dependency rest ih =>
    obtain ⟨kept, offered⟩ := visits dependency List.mem_cons_self memo good
    obtain ⟨last, all⟩ := ih (fun other member => visits other (List.mem_cons_of_mem _ member))
      (union found (visit memo dependency).1) (nodup_union unique offered.unique)
      (visit memo dependency).2 kept
    refine ⟨last, all.congr fun text => ?_⟩
    simp [mem_union, offered.mem_iff, or_assoc]

namespace PipelineGraph

variable {graph : PipelineGraph} {pruning : Pruning}

/-- A path of one or more edges on which all builds in between are pruned. -/
inductive Bridge (graph : PipelineGraph) (pruning : Pruning) : Text → Text → Prop
  | direct {start last : Text} (edge : graph.DependsOn start last) : Bridge graph pruning start last
  | past {start between last : Text} (edge : graph.DependsOn start between)
      (pruned : pruning.isKept between = false) (rest : Bridge graph pruning between last) :
      Bridge graph pruning start last

theorem Bridge.transGen {start last : Text} (bridge : graph.Bridge pruning start last) :
    TransGen graph.DependsOn start last := by
  induction bridge with
  | direct edge => exact .single edge
  | past edge _ _ ih => exact .head edge ih

/-- A kept build at the end of a bridge. -/
def Needs (graph : PipelineGraph) (pruning : Pruning) (start need : Text) : Prop :=
  pruning.isKept need = true ∧ graph.Bridge pruning start need

/-- What a dependency contributes: itself when it is kept, else its own needs. -/
def Offers (graph : PipelineGraph) (pruning : Pruning) (dependency need : Text) : Prop :=
  if pruning.isKept dependency then need = dependency else graph.Needs pruning dependency need

theorem needs_iff_exists_offers {start need : Text} :
    graph.Needs pruning start need ↔
      ∃ dependency ∈ graph.dependenciesOf start, graph.Offers pruning dependency need := by
  constructor
  · rintro ⟨kept, bridge⟩
    cases bridge with
    | direct edge => exact ⟨need, edge, by simp [Offers, kept]⟩
    | @past _ between _ edge pruned rest =>
      exact ⟨between, edge, by simpa [Offers, pruned] using ⟨kept, rest⟩⟩
  · rintro ⟨dependency, edge, offered⟩
    unfold Offers at offered
    split at offered
    next kept =>
      subst offered
      exact ⟨kept, .direct edge⟩
    next pruned => exact ⟨offered.1, .past edge (by simpa using pruned) offered.2⟩

/-- Everything remembered behind a build is what the build needs. -/
def MemoSound (graph : PipelineGraph) (pruning : Pruning) (memo : BridgeMemo) : Prop :=
  ∀ hash found, memo.lookup hash = some found → Collects found (graph.Needs pruning hash)

theorem memoSound_nil : graph.MemoSound pruning [] := by
  intro hash found remembered
  cases remembered

theorem MemoSound.cons {memo : BridgeMemo} (sound : graph.MemoSound pruning memo) {hash : Text}
    {found : List Text} (all : Collects found (graph.Needs pruning hash)) :
    graph.MemoSound pruning ((hash, found) :: memo) := by
  intro other remembered looked
  rw [List.lookup_cons] at looked
  split at looked
  next same =>
    obtain rfl := Option.some.inj looked
    rwa [beq_iff_eq.1 same]
  next => exact sound other remembered looked

/-- The way down never runs out of available builds: what lies below a
dependency lies below the build, and the build is not below itself. -/
theorem nearestKept_spec (acyclic : graph.Acyclic) (available : List Text) (memo : BridgeMemo)
    (sound : graph.MemoSound pruning memo) (hash : Text)
    (below : ∀ other, ReflTransGen graph.DependsOn hash other → other ∈ available) :
    graph.MemoSound pruning (graph.nearestKept pruning available memo hash).2 ∧
      Collects (graph.nearestKept pruning available memo hash).1 (graph.Offers pruning hash) := by
  rw [nearestKept]
  split
  next kept => exact ⟨sound, by simp, by simp [Offers, kept]⟩
  next pruned =>
    have needed : ∀ need, graph.Needs pruning hash need ↔ graph.Offers pruning hash need := by
      simp [Offers, pruned]
    split
    next found remembered => exact ⟨sound, (sound hash found remembered).congr needed⟩
    next unknown =>
      have inside : hash ∈ available := below hash .refl
      rw [dif_pos inside]
      have visits : ∀ dependency ∈ graph.dependenciesOf hash, ∀ memo, graph.MemoSound pruning memo →
          graph.MemoSound pruning (graph.nearestKept pruning (available.erase hash) memo dependency).2 ∧
            Collects (graph.nearestKept pruning (available.erase hash) memo dependency).1
              (graph.Offers pruning dependency) := by
        intro dependency edge memo sound
        have fewer := length_erase_lt inside
        refine nearestKept_spec acyclic (available.erase hash) memo sound dependency ?_
        intro other path
        have apart : other ≠ hash := by
          rintro rfl
          exact acyclic other (TransGen.head' edge path)
        exact (List.mem_erase_of_ne apart).2 (below other (path.head edge))
      obtain ⟨last, all⟩ := foldl_collects _ _ visits [] .nil memo sound
      have behind := all.congr fun need => show _ ↔ graph.Needs pruning hash need by
        simpa using needs_iff_exists_offers.symm
      exact ⟨last.cons behind, behind.congr needed⟩
termination_by available.length

theorem bridgedDependencies_spec (acyclic : graph.Acyclic) {memo : BridgeMemo}
    (sound : graph.MemoSound pruning memo) (hash : Text) :
    graph.MemoSound pruning (graph.bridgedDependencies pruning memo hash).2 ∧
      Collects (graph.bridgedDependencies pruning memo hash).1 (graph.Needs pruning hash) ∧
      (graph.bridgedDependencies pruning memo hash).1.Pairwise (graph.hashLe · · = true) := by
  have visits : ∀ dependency ∈ graph.dependenciesOf hash, ∀ memo, graph.MemoSound pruning memo →
      graph.MemoSound pruning (graph.nearestKept pruning graph.hashes memo dependency).2 ∧
        Collects (graph.nearestKept pruning graph.hashes memo dependency).1
          (graph.Offers pruning dependency) := by
    intro dependency edge memo sound
    refine nearestKept_spec acyclic graph.hashes memo sound dependency fun other path => ?_
    exact mem_hashes_of_reflTransGen (DependsOn.mem_hashes edge) path
  obtain ⟨last, all⟩ := foldl_collects _ _ visits [] .nil memo sound
  refine ⟨last, ⟨?_, fun need => ?_⟩, graph.hashLe_ordered.sorted _⟩
  · exact (sortBy_perm graph.hashLe _).nodup_iff.2 all.unique
  · refine mem_sortBy.trans ((all.mem_iff need).trans ?_)
    simpa using needs_iff_exists_offers.symm

/-- The needs of a build as a search without memo lists them. -/
def needsOf (graph : PipelineGraph) (pruning : Pruning) (hash : Text) : List Text :=
  (graph.bridgedDependencies pruning [] hash).1

theorem bridgedDependencies_eq_needsOf (acyclic : graph.Acyclic) {memo : BridgeMemo}
    (sound : graph.MemoSound pruning memo) (hash : Text) :
    (graph.bridgedDependencies pruning memo hash).1 = graph.needsOf pruning hash := by
  obtain ⟨_, found, sorted⟩ := bridgedDependencies_spec acyclic sound hash
  obtain ⟨_, plain, listed⟩ := bridgedDependencies_spec acyclic memoSound_nil hash
  refine eq_of_perm_of_sorted (fun a _ b _ => graph.hashLe_antisymm a b) ?_ sorted listed
  exact perm_of_mem_iff found.unique plain.unique fun need =>
    (found.mem_iff need).trans (plain.mem_iff need).symm

theorem mem_needsOf (acyclic : graph.Acyclic) {hash need : Text} :
    need ∈ graph.needsOf pruning hash ↔ graph.Needs pruning hash need :=
  (bridgedDependencies_spec acyclic memoSound_nil hash).2.1.mem_iff need

theorem exists_needs_of_transGen {start last : Text} (path : TransGen graph.DependsOn start last)
    (kept : pruning.isKept last = true) :
    ∃ next, graph.Needs pruning start next ∧ ReflTransGen (graph.Needs pruning) next last := by
  induction path using TransGen.head_induction_on with
  | single edge => exact ⟨last, ⟨kept, .direct edge⟩, .refl⟩
  | @head start between edge _ ih =>
    obtain ⟨next, first, rest⟩ := ih
    by_cases stop : pruning.isKept between = true
    · exact ⟨between, ⟨stop, .direct edge⟩, rest.head first⟩
    · exact ⟨next, ⟨first.1, .past edge (by simpa using stop) first.2⟩, rest⟩

/-- No order among kept builds is lost or made up by leaving pruned ones out. -/
theorem transGen_needs_iff {start last : Text} (kept : pruning.isKept last = true) :
    TransGen (graph.Needs pruning) start last ↔ TransGen graph.DependsOn start last := by
  constructor
  · exact fun path => TransGen.trans_induction_on path (fun need => need.2.transGen)
      fun _ _ first second => first.trans second
  · intro path
    obtain ⟨next, first, rest⟩ := exists_needs_of_transGen path kept
    exact TransGen.head' first rest

end PipelineGraph

end BuildPipeline
