import PageTree.Proofs.Markdown.StoredTree
import PageTree.Proofs.Pass.Levels

/-!
A tree that a program has loaded can be written and loaded again after any passes. The two levels
that a pass may add are the levels of the hints of one node, so that no further pass adds more.
-/

namespace PageTree

/-- A tree as it comes into a program, from a text of either format. -/
inductive Loaded : Node → Prop
  | json {text : String} {tree : Node} (accepted : Node.decode text = .ok tree)
      (shallow : Json.nesting text ≤ 125)
      (integers : ∀ written, Json.readDocument text.toList = some written →
        written.IntegersOutsidePositions) : Loaded tree
  | markdown {extensions : Markdown.Extensions} {text : String} (held : Markdown.Held text)
      (pretty : Bool)
      (shallow : Json.nesting ((Markdown.readTree extensions text).encode pretty) ≤ 125) :
      Loaded (Markdown.readTree extensions text)

namespace Loaded

theorem sound {tree : Node} (loaded : Loaded tree) :
    tree.kind = .root ∧ tree.Storable ∧ tree.toJson.depth ≤ 125 := by
  cases loaded with
  | @json text tree accepted shallow integers =>
    unfold Node.decode at accepted
    split at accepted
    · cases accepted
    · next node decoded =>
      obtain ⟨written, stands, read⟩ := Option.bind_eq_some_iff.mp decoded
      have spelled := Json.spelled_of_readDocument stands
      have storable := Node.storable_of_formed (Node.formed_of_ofWritten? spelled read)
        (Node.canonical_of_ofWritten? (integers written stands) read)
      have depth := Node.depth_le_of_ofWritten? spelled read
      rw [← Json.nesting_of_readDocument stands] at depth
      split at accepted
      · next isRoot =>
        cases accepted
        exact ⟨isRoot, storable, Nat.le_trans depth shallow⟩
      · cases accepted
  | @markdown extensions text held pretty shallow =>
    have storable := Markdown.storable_readTree extensions held
    rw [storable.nesting_encode] at shallow
    exact ⟨rfl, storable, shallow⟩

/-- After any passes, a loaded tree is read back from its text as it is, and its text nests at most
two levels deeper than that of the tree which was loaded. -/
theorem decode_applyAll {tree : Node} (loaded : Loaded tree) (steps : List (Pass × PageContext))
    (pretty : Bool) :
    Node.decode ((Pass.applyAll steps tree).encode pretty) = .ok (Pass.applyAll steps tree) ∧
      Json.nesting ((Pass.applyAll steps tree).encode pretty) ≤
        Json.nesting (tree.encode pretty) + 2 := by
  obtain ⟨isRoot, storable, shallow⟩ := loaded.sound
  have fits := Pass.fits_applyAll steps (storable.fits (Nat.le_refl _))
  have depth := fits.depth_le
  have isRoot := (Pass.kind_applyAll steps tree).trans isRoot
  have readable : (Pass.applyAll steps tree).toJson.depth ≤ Json.depthLimit :=
    Nat.le_trans depth (Nat.add_le_add_right shallow 2)
  rw [fits.storable.nesting_encode, storable.nesting_encode, fits.storable.decode_eq isRoot,
    if_pos readable]
  exact ⟨rfl, depth⟩

/-- A heading without anything in it, which is rewritten twice. -/
theorem decode_applyAll_heading :
    Loaded (.root [.ofKind .heading]) ∧
      Node.decode ((Pass.applyAll [(.heading, {}), (.entity, {}), (.heading, {})]
          (.root [.ofKind .heading])).encode true) =
        .ok (Pass.applyAll [(.heading, {}), (.entity, {}), (.heading, {})]
          (.root [.ofKind .heading])) ∧
      Json.nesting ((Pass.applyAll [(.heading, {}), (.entity, {}), (.heading, {})]
          (.root [.ofKind .heading])).encode true) ≤
        Json.nesting ((Node.root [.ofKind .heading]).encode true) + 2 := by
  let tree : Node := .root [.ofKind .heading]
  have integral : tree.toJson.Integral := by
    change Json.Integral
      (.obj [("type", .str "root"), ("children", .arr [.obj [("type", .str "heading")]])])
    simp [Json.integral_obj_iff, Json.integral_arr_iff, Json.integral_str]
  have read : Json.readDocument (tree.encode false).toList =
      some (.obj [(some "type", .str (some "root")),
        (some "children", .arr [.obj [(some "type", .str (some "heading"))]])]) :=
    Json.readDocument_write false integral
  have accepted : Node.decode (tree.encode false) = .ok tree := by
    rw [Node.decode, read]
    rfl
  have loaded : Loaded tree := by
    refine .json accepted ?_ fun written stands => ?_
    · rw [Node.encode, Json.nesting_write false integral]
      decide
    · rw [read] at stands
      cases stands
      have heading : Json.Written.IntegersOutsidePositions
          (.obj [(some "type", .str (some "heading"))]) :=
        .obj (by simp [Json.Written.AllNumerals.str]) (by simp)
      exact .obj (by simp [Json.Written.AllNumerals.str]) (by simp [heading])
  exact ⟨loaded, loaded.decode_applyAll [(.heading, {}), (.entity, {}), (.heading, {})] true⟩

example : (Node.root [.ofKind .heading]).toJson.depth = 3 ∧
    (Pass.applyAll [(.heading, {})] (.root [.ofKind .heading])).toJson.depth = 5 := by
  decide

end Loaded

end PageTree
