import Resumable.Document.Basic
import Mathlib.Data.List.Nodup
import Mathlib.Data.List.Range

/-! Anchors of a document. In a tree the path that leads up from a node leads back down to it, and a
path that leads to a node is its only one. -/
namespace Resumable.Document
open List Nat Option

/-- The nodes form one tree, in which parents and children agree. -/
structure IsTree (document : Document) : Prop where
  planted : root < document.nodes.length
  orphan : ∀ {id node}, document.node? id = some node → node.parent = none → id = root
  above : ∀ {id node parent}, document.node? id = some node → node.parent = some parent →
    parent < id ∧ id ∈ document.children parent
  below : ∀ {id child}, child ∈ document.children id → ∃ node, document.node? child = some node ∧ node.parent = some id
  once : ∀ {id}, (document.children id).Nodup

variable {document : Document} {id child parent : NodeId} {node : DocumentNode}

lemma lt_of_node? (found : document.node? id = some node) : id < document.nodes.length :=
  (List.getElem?_eq_some_iff.1 found).1

lemma node?_of_lt (bound : id < document.nodes.length) : ∃ node, document.node? id = some node :=
  ⟨_,getElem?_eq_getElem bound⟩

lemma isTree_empty : IsTree empty where
  planted := Nat.one_pos
  orphan found _ := lt_one_iff.1 (lt_of_node? found)
  above found up := by
    obtain rfl := lt_one_iff.1 (lt_of_node? found)
    cases found
    cases up
  below {id child} listed := by cases id <;> simp [empty,children,node?] at listed
  once {id} := by cases id <;> simp [empty,children,node?]

lemma children_append (bound : parent < document.nodes.length) (id : NodeId) :
    (document.append parent kind).2.children id =
      document.children id ++ if id = parent then [document.nodes.length] else [] := by
  simp only [children,node?,append]
  grind

/-- The parents after a node was added. -/
lemma parent_append : (∃ node, (document.append parent kind).2.node? id = some node ∧ node.parent = up) ↔
    id = document.nodes.length ∧ up = some parent ∨ ∃ node, document.node? id = some node ∧ node.parent = up := by
  rw [← map_eq_some_iff,← map_eq_some_iff]
  simp only [node?,append]
  grind

lemma isTree_append (tree : document.IsTree) (bound : parent < document.nodes.length) :
    (document.append parent kind).2.IsTree where
  planted := by simp [append,root]
  orphan found none := by
    obtain ⟨_,other⟩ | ⟨_,found,up⟩ := parent_append.1 ⟨_,found,none⟩
    · contradiction
    · exact tree.orphan found up
  above found up := by
    obtain ⟨rfl,same⟩ | ⟨_,found,up⟩ := parent_append.1 ⟨_,found,up⟩
    · cases same
      exact ⟨bound,by simp [children_append bound]⟩
    · obtain ⟨lower,listed⟩ := tree.above found up
      exact ⟨lower,by simp [children_append bound,listed]⟩
  below {id child} listed := by
    rw [children_append bound,mem_append,mem_ite_nil_right,mem_singleton] at listed
    obtain listed | ⟨rfl,rfl⟩ := listed
    · exact parent_append.2 (.inr (tree.below listed))
    · exact parent_append.2 (.inl ⟨rfl,rfl⟩)
  once {id} := by
    have fresh : document.nodes.length ∉ document.children id := by
      intro listed
      obtain ⟨node,found,_⟩ := tree.below listed
      exact (lt_of_node? found).ne rfl
    rw [children_append bound]
    split
    · simpa using tree.once.concat fresh
    · simpa using tree.once

lemma follow?_append (first second : List Nat) :
    document.follow? id (first ++ second) = (document.follow? id first).bind (document.follow? · second) := by
  induction first generalizing id with
  | nil => rfl
  | cons index first ih => cases next : (document.children id)[index]? <;> simp [follow?,next,ih]

variable (tree : document.IsTree)
include tree

lemma IsTree.follow?_climb (steps : Nat) (path : List Nat) (near : id < steps) (found : document.node? id = some node) :
    document.follow? root (document.climb steps id path) = document.follow? id path := by
  induction steps generalizing id node path with
  | zero => cases near
  | succ steps ih =>
    cases up : node.parent with
    | none =>
      cases tree.orphan found up
      simp [climb,found,up]
    | some parent =>
      obtain ⟨lower,listed⟩ := tree.above found up
      obtain ⟨index,position⟩ : ∃ index, (document.children parent).idxOf? id = some index :=
        isSome_iff_exists.1 (by simpa using listed)
      obtain ⟨outer,outerFound⟩ := node?_of_lt (lower.trans (lt_of_node? found))
      have back : (document.children parent)[index]? = some id := by
        obtain ⟨bound,there,_⟩ := idxOf?_eq_some_iff.1 position
        simpa using List.getElem?_eq_some_iff.2 ⟨bound,by simpa using there⟩
      calc document.follow? root (document.climb (steps + 1) id path)
          = document.follow? root (document.climb steps parent (index :: path)) := by simp [climb,found,up,position]
        _ = document.follow? parent (index :: path) := by
            exact ih (index :: path) (lower.trans_le (Nat.lt_succ_iff.1 near)) outerFound
        _ = document.follow? id path := by simp [follow?,back]

lemma IsTree.resolve?_pathTo (found : document.node? id = some node) :
    document.resolve? (document.pathTo id) = some id :=
  tree.follow?_climb (id + 1) [] (lt_succ_self id) found

lemma IsTree.length_children_le (id : NodeId) : (document.children id).length ≤ document.nodes.length := by
  have inside : document.children id ⊆ range document.nodes.length := by
    intro child listed
    obtain ⟨node,found,_⟩ := tree.below listed
    exact mem_range.2 (lt_of_node? found)
  simpa using tree.once.length_le_of_subset inside

lemma IsTree.lt_of_mem_climb (steps : Nat) (small : ∀ index ∈ path, index < document.nodes.length) :
    ∀ index ∈ document.climb steps id path, index < document.nodes.length := by
  induction steps generalizing id path with
  | zero => exact small
  | succ steps ih =>
    simp only [climb]
    split
    · rename_i parent _
      split
      · rename_i index position
        have bound : index < (document.children parent).length := (idxOf?_eq_some_iff.1 position).1
        refine ih fun other member => ?_
        rcases mem_cons.1 member with rfl | member
        · exact bound.trans_le (tree.length_children_le parent)
        · exact small other member
      · exact small
    · exact small

lemma IsTree.lt_of_mem_pathTo (member : index ∈ document.pathTo id) : index < document.nodes.length :=
  tree.lt_of_mem_climb (id + 1) (by simp) index member

lemma IsTree.climb_of_resolve? (leads : document.resolve? path = some id) :
    id < document.nodes.length ∧ ∀ steps rest, id < steps → document.climb steps id rest = path ++ rest := by
  induction path using reverseRecOn generalizing id with
  | nil =>
    cases leads
    refine ⟨tree.planted,fun steps rest near => ?_⟩
    obtain ⟨node,found⟩ := node?_of_lt tree.planted
    obtain ⟨steps,rfl⟩ := exists_eq_succ_of_ne_zero (Nat.ne_zero_of_lt near)
    cases up : node.parent with
    | none => simp [climb,found,up]
    | some parent => exact absurd (tree.above found up).1 (Nat.not_lt_zero _)
  | append_singleton path index ih =>
    rw [resolve?,follow?_append,bind_eq_some_iff] at leads
    obtain ⟨parent,leads,last⟩ := leads
    have there : (document.children parent)[index]? = some id := by
      cases there : (document.children parent)[index]? <;> simp_all [follow?]
    obtain ⟨node,found,up⟩ := tree.below (mem_of_getElem? there)
    have position : (document.children parent).idxOf? id = some index := by
      obtain ⟨bound,rfl⟩ := List.getElem?_eq_some_iff.1 there
      refine idxOf?_eq_some_iff.2 ⟨bound,by simp,fun other before => ?_⟩
      simpa [tree.once.getElem_inj_iff] using before.ne
    refine ⟨lt_of_node? found,fun steps rest near => ?_⟩
    obtain ⟨steps,rfl⟩ := exists_eq_succ_of_ne_zero (Nat.ne_zero_of_lt near)
    have lower := (tree.above found up).1.trans_le (Nat.lt_succ_iff.1 near)
    simp [climb,found,up,position,(ih leads).2 steps (index :: rest) lower]

/-- Anchors and resolution are inverse to each other, so different nodes have different anchors. -/
theorem anchors_invert_resolution :
    (∀ path id, document.resolve? path = some id ↔ id < document.nodes.length ∧ document.pathTo id = path) ∧
    ∀ id other, id < document.nodes.length → other < document.nodes.length →
      document.pathTo id = document.pathTo other → id = other := by
  have back {id} (bound : id < document.nodes.length) : document.resolve? (document.pathTo id) = some id := by
    obtain ⟨node, found⟩ := node?_of_lt bound
    exact tree.resolve?_pathTo found
  refine ⟨fun path id => ⟨fun leads => ?_, ?_⟩, fun id other bound below equal => ?_⟩
  · obtain ⟨bound, climbs⟩ := tree.climb_of_resolve? leads
    exact ⟨bound, by simpa [pathTo] using climbs (id + 1) [] (lt_succ_self id)⟩
  · rintro ⟨bound, rfl⟩
    exact back bound
  · exact some.inj ((back bound).symm.trans (equal ▸ back below))

omit tree

def page : Document := (((empty.append root (.element "ul")).2.append 1 (.element "li")).2.append 1 (.element "li")).2

lemma isTree_page : page.IsTree :=
  isTree_append (isTree_append (isTree_append isTree_empty (by decide)) (by decide)) (by decide)

theorem second_item_anchored : page.resolve? [0,1] = some 3 ∧ page.pathTo 3 = [0,1] :=
  ⟨by decide, (((anchors_invert_resolution isTree_page).1 [0,1] 3).1 (by decide)).2⟩

end Resumable.Document
