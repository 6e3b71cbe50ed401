import CapacityExpansion.Integrity.Validation
import Mathlib.Data.List.Nodup
import Mathlib.Data.List.Perm.Subperm
import Mathlib.Logic.Relation

/-!
# The order of checks

The order in which categories are checked is the one in which a depth-first search
finishes them. It is one from the *bottom up*: a node comes after everything it
depends on. That is how the search extends it, since it finishes a node only when
all that the node depends on is finished. What stands in the way is a node which
depends on one that the search is still on its way from, and in a graph without a
cycle there is none.

A graph with a cycle has no order from the bottom up at all, so the search is
noticed to have failed there and nowhere else.

* `BottomUp`: orders in which nodes come after what they depend on;
* `Extends`, `visit_extends`: what a search does to the finished nodes;
* `bottomUp_finish`, `mem_finish_iff`: the finishing order of an acyclic graph;
* `acyclic_of_checkOrder?`: graphs with a cycle have no order of checks;
* `checkOrder?_ofReferences`: the order of checks for any references.
-/

namespace CapacityExpansion.Integrity

namespace Graph

open Relation (TransGen)

variable (g : Graph)

/-- A node depends on the nodes to which a reference goes from it. -/
def DependsOn (a b : Node) : Prop := ∃ x ∈ g.edges, x.source = a ∧ x.target = b

/-- No node depends on itself, neither directly nor through others. -/
def Acyclic : Prop := ∀ node, ¬TransGen g.DependsOn node node

/-- A list of different nodes, each after everything it depends on. -/
inductive BottomUp : List Node → Prop where
  | nil : BottomUp []
  | snoc {order : List Node} {node : Node} (h : BottomUp order) (hnew : node ∉ order)
      (hdependencies : ∀ d, g.DependsOn node d → d ∈ order) : BottomUp (order ++ [node])

/-- `way` leads to a node: every node on it depends on that node. -/
structure LeadsTo (way : List Node) (node : Node) : Prop where
  nodup : way.Nodup
  subset : way ⊆ g.nodes.elements
  depends : ∀ w ∈ way, TransGen g.DependsOn w node

/-- The finished nodes `after` are those `before` and further ones, none of which is on the way. -/
structure Extends (way before after : List Node) : Prop where
  isPrefix : before <+: after
  bottomUp : g.BottomUp before → g.BottomUp after
  new : ∀ node ∈ after, node ∈ before ∨ node ∉ way ∧ node ∈ g.nodes.elements

variable {g} {way finished order : List Node} {a b node : Node} {references : List CrossReference}

theorem mem_dependencies : b ∈ g.dependencies a ↔ g.DependsOn a b := by
  simp [dependencies, DependsOn, and_assoc]

/-! ## Orders from the bottom up -/

namespace BottomUp

variable (h : g.BottomUp order)
include h

theorem nodup : order.Nodup := by
  induction h with
  | nil => exact List.nodup_nil
  | snoc _ hnew _ ih => exact List.nodup_append_comm.1 (List.nodup_cons.2 ⟨hnew, ih⟩)

/-- What a node of the order depends on comes before it. -/
theorem idxOf_lt (ha : a ∈ order) (hab : g.DependsOn a b) : order.idxOf b < order.idxOf a := by
  induction h with
  | nil => exact absurd ha List.not_mem_nil
  | @snoc order node _ hnew hdependencies ih =>
    by_cases hold : a ∈ order
    · have hlt := ih hold
      have hb : b ∈ order := List.idxOf_lt_length_iff.1
        (Nat.lt_trans hlt (List.idxOf_lt_length_of_mem hold))
      rwa [List.idxOf_append_of_mem hb, List.idxOf_append_of_mem hold]
    · obtain rfl : a = node := by simpa [hold] using ha
      have hb := hdependencies b hab
      rw [List.idxOf_append_of_mem hb, List.idxOf_append_of_notMem hold]
      exact Nat.lt_add_right _ (List.idxOf_lt_length_of_mem hb)

end BottomUp

/-! ## The search -/

namespace Extends

theorem refl (way finished : List Node) : g.Extends way finished finished :=
  ⟨List.prefix_rfl, id, fun _ => .inl⟩

theorem trans {before between after : List Node} (h : g.Extends way before between)
    (h' : g.Extends way between after) : g.Extends way before after := by
  refine ⟨h.isPrefix.trans h'.isPrefix, h'.bottomUp ∘ h.bottomUp, fun node hnode => ?_⟩
  exact (h'.new node hnode).elim (h.new node) .inr

/-- A node is finished after all that it depends on. -/
theorem finish {before after : List Node} (h : g.Extends (node :: way) before after)
    (hbefore : node ∉ before) (hway : node ∉ way) (hnode : node ∈ g.nodes.elements)
    (hdependencies : ∀ d, g.DependsOn node d → d ∈ after) :
    g.Extends way before (after ++ [node]) := by
  have hnew : node ∉ after := fun hmem =>
    (h.new node hmem).elim hbefore fun hnot => hnot.1 List.mem_cons_self
  refine ⟨h.isPrefix.trans (List.prefix_append _ _),
    fun hbottomUp => .snoc (h.bottomUp hbottomUp) hnew hdependencies, fun other hother => ?_⟩
  rcases List.mem_append.1 hother with hmem | hmem
  · exact (h.new other hmem).imp_right fun ⟨hnot, hin⟩ => ⟨fun hw => hnot (.tail _ hw), hin⟩
  · exact .inr (List.mem_singleton.1 hmem ▸ ⟨hway, hnode⟩)

end Extends

/-- Searching from several nodes finishes all of them if searching from each one finishes it. -/
theorem foldl_extends {search : List Node → Node → List Node} {nodes : List Node}
    (hsearch : ∀ n ∈ nodes, ∀ finished,
      g.Extends way finished (search finished n) ∧ n ∈ search finished n) (finished : List Node) :
    g.Extends way finished (nodes.foldl search finished) ∧
      ∀ n ∈ nodes, n ∈ nodes.foldl search finished := by
  induction nodes generalizing finished with
  | nil => exact ⟨.refl _ _, fun n hn => absurd hn List.not_mem_nil⟩
  | cons first rest ih =>
    obtain ⟨hfirst, hmem⟩ := hsearch first List.mem_cons_self finished
    obtain ⟨hrest, hmems⟩ :=
      ih (fun n hn => hsearch n (List.mem_cons_of_mem _ hn)) (search finished first)
    exact ⟨hfirst.trans hrest, List.forall_mem_cons.2 ⟨hrest.isPrefix.subset hmem, hmems⟩⟩

section Acyclic

variable (hacyclic : g.Acyclic)
include hacyclic

theorem LeadsTo.not_mem (h : g.LeadsTo way node) : node ∉ way :=
  fun hmem => hacyclic node (h.depends node hmem)

/-- A way goes on with what its end depends on. -/
theorem LeadsTo.cons (h : g.LeadsTo way a) (ha : a ∈ g.nodes.elements) (hab : g.DependsOn a b) :
    g.LeadsTo (a :: way) b := by
  refine ⟨List.nodup_cons.2 ⟨h.not_mem hacyclic, h.nodup⟩, List.cons_subset.2 ⟨ha, h.subset⟩, ?_⟩
  exact List.forall_mem_cons.2 ⟨.single hab, fun w hw => (h.depends w hw).tail hab⟩

variable (htargets : ∀ x ∈ g.edges, x.target ∈ g.nodes.elements)
include htargets

/-- A search from a node finishes it, and nothing on the way to it. A way has no node twice, so it
    is never longer than the depth allows. -/
theorem visit_extends {depth : Nat} (hway : g.LeadsTo way node) (hnode : node ∈ g.nodes.elements)
    (hdepth : g.nodes.elements.length < depth + way.length) (finished : List Node) :
    g.Extends way finished (g.visit depth way finished node) ∧
      node ∈ g.visit depth way finished node := by
  induction depth generalizing way node finished with
  | zero =>
    have hle := (List.subperm_of_subset hway.nodup hway.subset).length_le
    omega
  | succ depth ih =>
    have hnot := hway.not_mem hacyclic
    rw [visit]
    split
    · next hdone => exact ⟨.refl _ _, hdone.resolve_right hnot⟩
    · next hnew =>
      have hstep : ∀ d ∈ g.dependencies node, ∀ finished,
          g.Extends (node :: way) finished (g.visit depth (node :: way) finished d) ∧
            d ∈ g.visit depth (node :: way) finished d := by
        intro d hd finished
        obtain ⟨x, hx, hsource, rfl⟩ := mem_dependencies.1 hd
        exact ih (hway.cons hacyclic hnode ⟨x, hx, hsource, rfl⟩) (htargets x hx)
          (by rw [List.length_cons]; omega) finished
      obtain ⟨hextends, hmem⟩ := foldl_extends hstep finished
      exact ⟨hextends.finish (fun h => hnew (.inl h)) hnot hnode
        fun d hd => hmem d (mem_dependencies.2 hd), by simp⟩

theorem finish_extends :
    g.Extends [] [] g.finish ∧ ∀ node ∈ g.nodes.elements, node ∈ g.finish := by
  refine foldl_extends (fun node hnode finished => ?_) []
  have hway : g.LeadsTo [] node :=
    ⟨.nil, List.nil_subset _, fun _ hw => absurd hw List.not_mem_nil⟩
  exact visit_extends hacyclic htargets hway hnode (Nat.lt_succ_self _) finished

theorem bottomUp_finish : g.BottomUp g.finish :=
  (finish_extends hacyclic htargets).1.bottomUp .nil

theorem mem_finish_iff : node ∈ g.finish ↔ node ∈ g.nodes.elements := by
  obtain ⟨hextends, hmem⟩ := finish_extends hacyclic htargets
  refine ⟨fun h => ?_, hmem node⟩
  exact ((hextends.new node h).resolve_left List.not_mem_nil).2

/-- The finishing order of an acyclic graph is an order of checks. -/
theorem checkOrder?_of_acyclic (hsources : ∀ x ∈ g.edges, x.source ∈ g.nodes.elements) :
    g.checkOrder? = some g.finish := by
  refine if_pos (List.all_eq_true.2 fun x hx => decide_eq_true ?_)
  exact (bottomUp_finish hacyclic htargets).idxOf_lt
    ((mem_finish_iff hacyclic htargets).2 (hsources x hx)) ⟨x, hx, rfl, rfl⟩

end Acyclic

/-- In an order of checks what a node depends on, be it through others, comes before it. -/
theorem idxOf_lt_of_transGen (horder : g.checkOrder? = some order)
    (hab : TransGen g.DependsOn a b) : order.idxOf b < order.idxOf a := by
  have hstep : ∀ {a b}, g.DependsOn a b → order.idxOf b < order.idxOf a := by
    rintro _ _ ⟨x, hx, rfl, rfl⟩
    exact idxOf_lt_of_checkOrder? horder hx
  induction hab with
  | single hab => exact hstep hab
  | tail _ hbc ih => exact Nat.lt_trans (hstep hbc) ih

/-- A graph with an order of checks has no cycle. -/
theorem acyclic_of_checkOrder? (horder : g.checkOrder? = some order) : g.Acyclic :=
  fun _ hcycle => Nat.lt_irrefl _ (idxOf_lt_of_transGen horder hcycle)

/-! ## The graph of references -/

theorem mem_nodes_ofReferences : node ∈ (ofReferences references).nodes.elements ↔
    ∃ x ∈ references, node = x.source ∨ node = x.target := by
  simp [ofReferences, OrderedSet.mem_ofList]

/-- The graph of some references has one node for everything they mention and an edge for each of
    them. If it has no cycle, the order of checks goes once through the nodes, and each one comes
    after what it refers to. If it has one, there is no order of checks. -/
theorem checkOrder?_ofReferences (references : List CrossReference) :
    (ofReferences references).nodes.elements.Nodup ∧
    (∀ node, node ∈ (ofReferences references).nodes.elements ↔
      ∃ x ∈ references, node = x.source ∨ node = x.target) ∧
    (ofReferences references).edges = references ∧
    ((ofReferences references).Acyclic → ∃ order,
      (ofReferences references).checkOrder? = some order ∧
        order.Perm (ofReferences references).nodes.elements ∧
        ∀ x ∈ references, order.idxOf x.target < order.idxOf x.source) ∧
    (¬(ofReferences references).Acyclic → (ofReferences references).checkOrder? = none) := by
  have htargets : ∀ x ∈ (ofReferences references).edges,
      x.target ∈ (ofReferences references).nodes.elements :=
    fun x hx => mem_nodes_ofReferences.2 ⟨x, hx, .inr rfl⟩
  have hsources : ∀ x ∈ (ofReferences references).edges,
      x.source ∈ (ofReferences references).nodes.elements :=
    fun x hx => mem_nodes_ofReferences.2 ⟨x, hx, .inl rfl⟩
  refine ⟨OrderedSet.nodup _, fun _ => mem_nodes_ofReferences, rfl, fun hacyclic => ?_,
    fun hcyclic => Option.eq_none_iff_forall_ne_some.2 fun order horder =>
      hcyclic (acyclic_of_checkOrder? horder)⟩
  have horder := checkOrder?_of_acyclic hacyclic htargets hsources
  refine ⟨_, horder, ?_, fun x hx => idxOf_lt_of_checkOrder? horder hx⟩
  exact (List.perm_ext_iff_of_nodup (bottomUp_finish hacyclic htargets).nodup
    (OrderedSet.nodup _)).2 fun _ => mem_finish_iff hacyclic htargets

/-- The load zones and the zones of projects, each referring to the other. -/
def mutualReferences : List CrossReference :=
  [⟨.projectLoadZones, .zonesWithin .loadZones⟩, ⟨.loadZones, .entitiesWithin .projectLoadZones⟩]

/-- The references which are checked have an order of checks; references to each other have none. -/
theorem checkOrder?_ofReferences_mutual :
    (∃ order, (ofReferences crossReferences).checkOrder? = some order ∧
      order.Perm (ofReferences crossReferences).nodes.elements ∧
      ∀ x ∈ crossReferences, order.idxOf x.target < order.idxOf x.source) ∧
    (ofReferences mutualReferences).checkOrder? = none := by
  have hacyclic : (ofReferences crossReferences).Acyclic :=
    acyclic_of_checkOrder? checkOrder?_crossReferences
  have hcyclic : ¬(ofReferences mutualReferences).Acyclic := fun h =>
    h (.scenario .loadZones) (.tail (.single ⟨_, .tail _ (.head _), rfl, rfl⟩)
      ⟨_, .head _, rfl, rfl⟩)
  obtain ⟨-, -, -, horder, -⟩ := checkOrder?_ofReferences crossReferences
  obtain ⟨-, -, -, -, hnone⟩ := checkOrder?_ofReferences mutualReferences
  exact ⟨horder hacyclic, hnone hcyclic⟩

/-- A reference of a category to itself is a cycle. -/
example : (ofReferences [⟨.loadZones, .entitiesWithin .loadZones⟩]).checkOrder? = none := by decide

end Graph

end CapacityExpansion.Integrity
