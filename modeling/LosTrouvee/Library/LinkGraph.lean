import Mathlib.Data.Set.Function

-- A graph whose nodes have labels and lead to other nodes by named links. A node without a label is
-- not part of the graph.
structure LinkGraph (ν ι α : Type*) where
  label : ν → Option α
  link  : ν → ι → Option ν

namespace LinkGraph

variable {ν ν' ι α : Type*} {f : ν → ν'} {G : LinkGraph ν ι α} {H : LinkGraph ν' ι α} {m n : ν}
  {p : ι} {ps : List ι} {a : α}

def nodes (G : LinkGraph ν ι α) : Set ν :=
  { n | (G.label n).isSome }

-- No link of the graph leads out of it.
def Closed (G : LinkGraph ν ι α) : Prop :=
  ∀ n ∈ G.nodes, ∀ p m, G.link n p = some m → m ∈ G.nodes

-- The label at the end of a path of links.
def read (G : LinkGraph ν ι α) : ν → List ι → Option α
  | n, []      => G.label n
  | n, p :: ps => (G.link n p).bind fun m => G.read m ps

-- Two graphs are the same up to the identity of their nodes.
structure Iso (f : ν → ν') (G : LinkGraph ν ι α) (H : LinkGraph ν' ι α) : Prop where
  label : ∀ n ∈ G.nodes, H.label (f n) = G.label n
  link  : ∀ n ∈ G.nodes, ∀ p, H.link (f n) p = (G.link n p).map f
  bijOn : Set.BijOn f G.nodes H.nodes

namespace Iso

-- A path of links reads the same in both graphs.
theorem read (h : Iso f G H) (hc : G.Closed) (hn : n ∈ G.nodes) (ps : List ι) :
    H.read (f n) ps = G.read n ps := by
  induction ps generalizing n
  case nil          => exact h.label n hn
  case cons p ps hi =>
    simp only [LinkGraph.read, h.link n hn]
    cases hm : G.link n p
    case none   => rfl
    case some m => exact hi (hc n hn p m hm)

end Iso

variable [DecidableEq ν]

-- The graph without a node and the links that lead to it.
def remove (G : LinkGraph ν ι α) (n : ν) : LinkGraph ν ι α where
  label m  := if m = n then none else G.label m
  link m p := (G.link m p).filter (· ≠ n)

theorem mem_remove_nodes : m ∈ (G.remove n).nodes ↔ m ∈ G.nodes ∧ m ≠ n := by
  by_cases h : m = n <;> simp [nodes, remove, h]

theorem Closed.remove (h : G.Closed) (n : ν) : (G.remove n).Closed := by
  intro m hm p m' hl
  obtain ⟨hl, hn⟩ : G.link m p = some m' ∧ m' ≠ n := by
    simpa [LinkGraph.remove, Option.filter_eq_some_iff] using hl
  exact mem_remove_nodes.mpr ⟨h m (mem_remove_nodes.mp hm).left p m' hl, hn⟩

-- What can still be read is what was there before.
theorem read_of_remove (h : (G.remove n).read m ps = some a) : G.read m ps = some a := by
  induction ps generalizing m
  case nil =>
    by_cases hm : m = n <;> simp_all [read, remove]
  case cons p ps hi =>
    obtain ⟨m', hl, hr⟩ := Option.bind_eq_some_iff.mp h
    have hl : G.link m p = some m' := (Option.filter_eq_some_iff.mp hl).left
    exact Option.bind_eq_some_iff.mpr ⟨m', hl, hi hr⟩

-- Nothing changes for the other nodes if no link leads to the node.
theorem read_remove (hc : G.Closed) (hl : ∀ m ∈ G.nodes, ∀ p, G.link m p ≠ some n)
    (hm : m ∈ G.nodes) (hn : m ≠ n) : (G.remove n).read m ps = G.read m ps := by
  induction ps generalizing m
  case nil          => simp [read, remove, hn]
  case cons p ps hi =>
    have hne {m'} (hk : G.link m p = some m') : m' ≠ n := fun he => hl m hm p (he ▸ hk)
    have hr : (G.remove n).link m p = G.link m p := by
      cases hk : G.link m p
      case none    => simp [remove, hk]
      case some m' => simp [remove, hk, Option.filter, hne hk]
    rw [read, read, hr]
    cases hk : G.link m p
    case none    => rfl
    case some m' => exact hi (hc m hm p m' hk) (hne hk)

end LinkGraph
