/- GID: Loopx/Lib/Layering
   generality: G
   source: none
   digest: Acyclic relations grown link by link, and the longest paths that layer them. -/

import Loopx.Lib.BreadthFirst
import Loopx.Lib.KeyedList

set_option autoImplicit false
set_option relaxedAutoImplicit false

namespace Loopx.Lib.Layering

open Loopx.Lib.BreadthFirst (Walk search enumerates_search Enumerates)
open Loopx.Lib.KeyedList

variable {α : Type} [DecidableEq α]

/-- The nodes that the links of a node lead to, in the order of the links. -/
def successors (links : List (α × α)) (a : α) : List α :=
  (links.filter fun link => link.1 = a).map Prod.snd

/-- No node leads back to itself. -/
def Acyclic (links : List (α × α)) : Prop :=
  ∀ n a, ¬Walk (successors links) a (n + 1) a

/-- The links below a node on the longest path that leaves it. -/
structure IsDepth (links : List (α × α)) (a : α) (depth : Nat) : Prop where
  path : ∃ b, Walk (successors links) a depth b
  longest : ∀ n b, Walk (successors links) a n b → n ≤ depth

/-! ## Paths -/

theorem mem_successors {links : List (α × α)} {a b : α} :
    b ∈ successors links a ↔ (a, b) ∈ links := by
  simp [successors]

variable {links links' : List (α × α)} {a b c d : α} {n m : Nat}

theorem Walk.mono (sub : links ⊆ links') (walk : Walk (successors links) a n b) :
    Walk (successors links') a n b := by
  induction walk with
  | refl => exact .refl
  | step _ link ih => exact .step ih (mem_successors.2 (sub (mem_successors.1 link)))

theorem Walk.append (walk : Walk (successors links) a n b)
    (walk' : Walk (successors links) b m c) : Walk (successors links) a (n + m) c := by
  induction walk' with
  | refl => exact walk
  | step _ link ih => exact .step ih link

theorem walk_cons (link : (a, b) ∈ links) (walk : Walk (successors links) b n c) :
    Walk (successors links) a (n + 1) c := by
  rw [Nat.add_comm]
  exact Walk.append (.step .refl (mem_successors.2 link)) walk

theorem walk_uncons (walk : Walk (successors links) a (n + 1) c) :
    ∃ b, (a, b) ∈ links ∧ Walk (successors links) b n c := by
  induction n generalizing c with
  | zero =>
    cases walk with
    | step walk link =>
      cases walk
      exact ⟨c, mem_successors.1 link, .refl⟩
  | succ n ih =>
    cases walk with
    | step walk link =>
      obtain ⟨b, first, rest⟩ := ih walk
      exact ⟨b, first, .step rest link⟩

theorem Acyclic.mono (acyclic : Acyclic links') (sub : links ⊆ links') : Acyclic links :=
  fun n a walk => acyclic n a (Walk.mono sub walk)

/-- A path over one more link avoids the link, or the old links lead to it and on from it. -/
private theorem walk_concat (walk : Walk (successors (links ++ [(a, b)])) c n d) :
    Walk (successors links) c n d ∨
      (∃ k, Walk (successors links) c k a) ∧ ∃ k, Walk (successors links) b k d := by
  induction walk with
  | refl => exact .inl .refl
  | step _ link ih =>
    rcases List.mem_append.mp (mem_successors.1 link) with old | new
    · rcases ih with avoids | ⟨into, k, out⟩
      · exact .inl (.step avoids (mem_successors.2 old))
      · exact .inr ⟨into, k + 1, .step out (mem_successors.2 old)⟩
    · obtain ⟨rfl, rfl⟩ := Prod.mk.inj (List.mem_singleton.mp new)
      rcases ih with avoids | ⟨into, _⟩
      · exact .inr ⟨⟨_, avoids⟩, 0, .refl⟩
      · exact .inr ⟨into, 0, .refl⟩

/-- A link whose target does not lead back to its source closes no cycle. -/
theorem Acyclic.concat (acyclic : Acyclic links) (apart : ∀ n, ¬Walk (successors links) b n a) :
    Acyclic (links ++ [(a, b)]) := by
  intro n c walk
  rcases walk_concat walk with old | ⟨⟨k, into⟩, k', out⟩
  · exact acyclic n c old
  · exact apart _ (Walk.append out into)

/-- A path of an acyclic relation visits no node twice. -/
private theorem Acyclic.trail (acyclic : Acyclic links) (walk : Walk (successors links) a n b) :
    ∃ visited : List α, visited.length = n ∧ visited.Nodup ∧
      ∀ c ∈ visited, c ∈ links.map Prod.snd ∧ ∃ k, Walk (successors links) c k b := by
  induction walk with
  | refl => exact ⟨[], rfl, List.nodup_nil, fun c mem => absurd mem List.not_mem_nil⟩
  | step _ link ih =>
    next b b' _ =>
    obtain ⟨visited, length, nodup, each⟩ := ih
    have fresh : b' ∉ visited := by
      intro mem
      obtain ⟨_, k, back⟩ := each b' mem
      exact acyclic k b' (.step back link)
    refine ⟨b' :: visited, by rw [List.length_cons, length], nodup.cons fresh, fun c mem => ?_⟩
    rcases List.mem_cons.mp mem with rfl | mem
    · exact ⟨List.mem_map_of_mem (mem_successors.1 link), 0, .refl⟩
    · obtain ⟨target, k, walk⟩ := each c mem
      exact ⟨target, k + 1, .step walk link⟩

theorem Acyclic.length_le (acyclic : Acyclic links) {all : List α}
    (within : ∀ link ∈ links, link.2 ∈ all) (walk : Walk (successors links) a n b) :
    n ≤ all.length := by
  obtain ⟨visited, rfl, nodup, each⟩ := acyclic.trail walk
  refine (List.subperm_of_subset nodup fun c mem => ?_).length_le
  obtain ⟨link, listed, rfl⟩ := List.mem_map.mp (each c mem).1
  exact within link listed

/-! ## Reachability -/

/-- The queue has room for every node that the links lead to. -/
def reaches (links : List (α × α)) (a b : α) : Bool :=
  b ∈ (search (links.length + 1) (successors links) a).nodes

theorem reaches_iff : reaches links a b = true ↔ ∃ n, Walk (successors links) a n b := by
  have within : ∀ c ∈ a :: links.map Prod.snd, ∀ d ∈ successors links c,
      d ∈ a :: links.map Prod.snd := fun c _ d link =>
    List.mem_cons_of_mem _ (List.mem_map.mpr ⟨(c, d), mem_successors.1 link, rfl⟩)
  have enumerates := enumerates_search List.mem_cons_self within
    (by rw [List.length_cons, List.length_map])
  rw [reaches, decide_eq_true_iff, enumerates.mem_iff]

/-! ## Depth -/

/-- The depth of a node after those of its successors, which are looked up where known. -/
def visit (links : List (α × α)) : Nat → List (α × Nat) → α → Option (Nat × List (α × Nat))
  | 0, _, _ => none
  | fuel + 1, depth, a =>
    match depth.lookup a with
    | some known => some (known, depth)
    | none => do
      let (result, depth) ← (successors links a).foldlM
        (fun (state : Nat × List (α × Nat)) next => do
          let (below, depth) ← visit links fuel state.2 next
          some (max state.1 (below + 1), depth)) (0, depth)
      some (result, setKey depth a result)

def visitAll (links : List (α × α)) (fuel : Nat) (depth : List (α × Nat)) (order : List α) :
    Option (List (α × Nat)) :=
  order.foldlM (fun depth a => (visit links fuel depth a).map Prod.snd) depth

/-- Every recorded depth is right. -/
def Recorded (links : List (α × α)) (depth : List (α × Nat)) : Prop :=
  ∀ a known, depth.lookup a = some known → IsDepth links a known

/-- The larger record keeps what the smaller one knows. -/
def Keeps (depth depth' : List (α × Nat)) : Prop :=
  ∀ a known, depth.lookup a = some known → depth'.lookup a = some known

theorem IsDepth.unique {depth depth' : Nat} (h : IsDepth links a depth)
    (h' : IsDepth links a depth') : depth = depth' := by
  obtain ⟨⟨b, walk⟩, longest⟩ := h
  obtain ⟨⟨b', walk'⟩, longest'⟩ := h'
  exact Nat.le_antisymm (longest' _ _ walk) (longest _ _ walk')

/-- Depth decreases along a link. -/
theorem IsDepth.lt {depth below : Nat} (h : IsDepth links a depth) (link : (a, b) ∈ links)
    (h' : IsDepth links b below) : below < depth := by
  obtain ⟨⟨c, walk⟩, _⟩ := h'
  exact h.longest _ _ (walk_cons link walk)

/-- The largest of the depths below a node, or zero without successors. -/
structure Below (links : List (α × α)) (nexts : List α) (result : Nat) : Prop where
  bound : ∀ next ∈ nexts, ∀ n b, Walk (successors links) next n b → n + 1 ≤ result
  path : result = 0 ∨ ∃ next ∈ nexts, ∃ n b, Walk (successors links) next n b ∧ result = n + 1

private theorem IsDepth.of_below {result : Nat} (h : Below links (successors links a) result) :
    IsDepth links a result := by
  refine ⟨?_, fun n b walk => ?_⟩
  · rcases h.path with rfl | ⟨next, link, n, b, walk, rfl⟩
    · exact ⟨a, .refl⟩
    · exact ⟨b, walk_cons (mem_successors.1 link) walk⟩
  · cases n with
    | zero => exact Nat.zero_le _
    | succ n =>
      obtain ⟨next, link, rest⟩ := walk_uncons walk
      exact h.bound next (mem_successors.2 link) n b rest

theorem visit_spec (links : List (α × α)) (fuel : Nat) (a : α) (depth : List (α × Nat))
    (short : ∀ n b, Walk (successors links) a n b → n < fuel) (recorded : Recorded links depth) :
    ∃ result depth', visit links fuel depth a = some (result, depth') ∧
      IsDepth links a result ∧ depth'.lookup a = some result ∧ Recorded links depth' ∧
      Keeps depth depth' := by
  induction fuel generalizing a depth with
  | zero => exact absurd (short 0 a .refl) (Nat.lt_irrefl 0)
  | succ fuel ih =>
    cases found : depth.lookup a with
    | some known =>
      exact ⟨known, depth, by simp only [visit, found], recorded a known found, found, recorded,
        fun _ _ h => h⟩
    | none =>
      -- the fold over the successors, from those already seen
      have fold : ∀ (rest seen : List α) (state : Nat × List (α × Nat)),
          (∀ next ∈ rest, next ∈ successors links a) → Below links seen state.1 →
          Recorded links state.2 → Keeps depth state.2 →
          ∃ state', rest.foldlM (fun (state : Nat × List (α × Nat)) next => do
              let (below, depth) ← visit links fuel state.2 next
              some (max state.1 (below + 1), depth)) state = some state' ∧
            Below links (seen ++ rest) state'.1 ∧ Recorded links state'.2 ∧
            Keeps depth state'.2 := by
        intro rest
        induction rest with
        | nil =>
          intro seen state _ below recorded keeps
          exact ⟨state, rfl, by rwa [List.append_nil], recorded, keeps⟩
        | cons next rest ih' =>
          intro seen state links_ below recorded keeps
          have link := mem_successors.1 (links_ next List.mem_cons_self)
          obtain ⟨result, depth', visited, isDepth, _, recorded', keeps'⟩ := ih next state.2
            (fun n b walk => Nat.lt_of_succ_lt_succ (short (n + 1) b (walk_cons link walk)))
            recorded
          obtain ⟨⟨b, walk⟩, longest⟩ := isDepth
          have below' : Below links (seen ++ [next]) (max state.1 (result + 1)) := by
            refine ⟨fun next' mem n c walk' => ?_, ?_⟩
            · rcases List.mem_append.mp mem with old | new
              · exact Nat.le_trans (below.bound next' old n c walk') (Nat.le_max_left _ _)
              · rw [List.mem_singleton.mp new] at walk'
                have := longest n c walk'
                omega
            · rcases Nat.le_total (result + 1) state.1 with small | large
              · rw [Nat.max_eq_left small]
                refine below.path.imp_right ?_
                rintro ⟨next', mem, path⟩
                exact ⟨next', List.mem_append_left _ mem, path⟩
              · rw [Nat.max_eq_right large]
                exact .inr ⟨next, List.mem_append_right _ List.mem_cons_self, result, b, walk, rfl⟩
          obtain ⟨state', folded, whole⟩ := ih' (seen ++ [next]) (max state.1 (result + 1), depth')
            (fun c mem => links_ c (List.mem_cons_of_mem _ mem)) below' recorded'
            fun c known h => keeps' c known (keeps c known h)
          refine ⟨state', ?_, by rwa [List.append_assoc] at whole⟩
          rw [List.foldlM_cons, visited]
          exact folded
      obtain ⟨⟨result, depth'⟩, folded, below, recorded', keeps⟩ := fold (successors links a) []
        (0, depth) (fun _ mem => mem) ⟨fun _ mem => absurd mem List.not_mem_nil, .inl rfl⟩ recorded
        fun _ _ h => h
      have isDepth := IsDepth.of_below below
      refine ⟨result, setKey depth' a result, ?_, isDepth, ?_, fun b known h => ?_,
        fun b known h => ?_⟩
      · simp only [visit, found, folded]
        rfl
      · rw [lookup_setKey, if_pos rfl]
      · rw [lookup_setKey] at h
        split at h
        · next same =>
          rw [same, ← Option.some.inj h]
          exact isDepth
        · exact recorded' b known h
      · rw [lookup_setKey, if_neg, keeps b known h]
        rintro rfl
        rw [found] at h
        cases h

/-- With fuel for every path, each visited node gets its depth. -/
theorem visitAll_spec (links : List (α × α)) (fuel : Nat) (order : List α)
    (depth : List (α × Nat)) (short : ∀ a ∈ order, ∀ n b, Walk (successors links) a n b → n < fuel)
    (recorded : Recorded links depth) :
    ∃ depth', visitAll links fuel depth order = some depth' ∧ Recorded links depth' ∧
      Keeps depth depth' ∧ ∀ a ∈ order, ∃ known, depth'.lookup a = some known := by
  induction order generalizing depth with
  | nil => exact ⟨depth, rfl, recorded, fun _ _ h => h, fun a mem => absurd mem List.not_mem_nil⟩
  | cons a order ih =>
    obtain ⟨result, depth', visited, _, found, recorded', keeps⟩ :=
      visit_spec links fuel a depth (short a List.mem_cons_self) recorded
    obtain ⟨depth'', all, recorded'', keeps', each⟩ :=
      ih depth' (fun b mem => short b (List.mem_cons_of_mem _ mem)) recorded'
    refine ⟨depth'', ?_, recorded'', fun b known h => keeps' b known (keeps b known h),
      fun b mem => ?_⟩
    · rw [visitAll, List.foldlM_cons, visited]
      exact all
    · rcases List.mem_cons.mp mem with rfl | mem
      · exact ⟨result, keeps' b result found⟩
      · exact each b mem

end Loopx.Lib.Layering
