import ImportAtlas.Command.Session
import ImportAtlas.Proofs.RoundTrip

/-!
# Proofs/Unambiguity — a printed graph is the graph of no other text

What a command prints of a tree or of a graph determines it (`results_unambiguous`): both layouts are
read as one document, and documents of different values differ.  A tree is followed through all of its
levels, where the word that a node carries keeps directories and modules apart.
-/

namespace ImportAtlas

open Json

/-! ## Documents determine values -/

theorem eq_of_map_eq {α β : Type} {f : α → β} {as bs : List α}
    (hf : ∀ a ∈ as, ∀ b, f a = f b → a = b) (h : as.map f = bs.map f) : as = bs := by
  induction as generalizing bs with
  | nil => exact (List.map_eq_nil_iff.mp h.symm).symm
  | cons a as ih =>
    obtain ⟨ha, has⟩ := List.forall_mem_cons.mp hf
    obtain ⟨b, bs, rfl, hb, hbs⟩ := List.map_eq_cons_iff.mp h.symm
    rw [ha b hb.symm, ih has hbs.symm]

/-- What can be read back is known by its document. -/
theorem eq_of_toJson_eq {α : Type} {toJson : α → Json} {ofJson? : Json → Option α}
    (hread : ∀ a, ofJson? (toJson a) = some a) {a b : α} (h : toJson a = toJson b) : a = b := by
  have hb := hread b
  rw [← h, hread a] at hb
  exact Option.some.inj hb

theorem Path.toJson_inj {p q : Path} (h : p.toJson = q.toJson) : p = q := by
  have hread (p : Path) : Path.ofJson? p.toJson = some p := rfl
  exact eq_of_toJson_eq hread h

/-- **Maps with the same keys in the same order and the same documents are the same**, if values are
known by their documents. -/
theorem OrderedMap.toJson_inj {α : Type} {encode : α → Json} {m n : OrderedMap ModuleId α}
    (hencode : ∀ {a b}, encode a = encode b → a = b) (h : m.toJson encode = n.toJson encode) :
    m = n := by
  refine ext (eq_of_map_eq (fun e _ e' he => ?_) (object.inj h))
  obtain ⟨hid, hvalue⟩ := Prod.mk.inj he
  have hpath : e.1.path = e'.1.path := Path.toJson_inj (congrArg string hid)
  exact Prod.ext (congrArg ModuleId.mk hpath) (hencode hvalue)

theorem ImportRecord.toJson_inj {a b : ImportRecord} (h : a.toJson = b.toJson) : a = b :=
  eq_of_toJson_eq (ofInner?_toJson (show 0 + 2 < levelLimit by decide)) h

theorem Leaf.toJson_inj {a b : Leaf} (h : a.toJson = b.toJson) : a = b := by
  simp only [toJson, object.injEq, List.cons.injEq, Prod.mk.injEq, array.injEq] at h
  obtain ⟨⟨_, hid⟩, ⟨_, hdialect⟩, ⟨_, himports⟩, ⟨_, hexports⟩, _⟩ := h
  cases a
  cases b
  rw [mk.injEq]
  exact ⟨eq_of_toJson_eq ModuleId.ofJson?_toJson hid, eq_of_toJson_eq Dialect.ofJson?_toJson hdialect,
    OrderedMap.toJson_inj ImportRecord.toJson_inj himports,
    eq_of_map_eq (fun _ _ _ => eq_of_toJson_eq ExportRecord.ofJson?_toJson) hexports⟩

theorem Tree.document_inj {p q : Path} {documents documents' : List Json}
    (h : document p documents = document q documents') : p = q ∧ documents = documents' := by
  simp only [document, object.injEq, List.cons.injEq, Prod.mk.injEq, array.injEq] at h
  exact ⟨Path.toJson_inj h.1.2, h.2.1.2⟩

/-- **Nodes with the same document are the same**, however deep they go. -/
theorem Node.toJson_inj : ∀ {m n : Node}, m.toJson = n.toJson → m = n
  | directory p children, directory q children', h => by
    simp only [toJson, object.injEq, List.cons.injEq, Prod.mk.injEq] at h
    obtain ⟨rfl, hchildren⟩ := Tree.document_inj h.2.1.2
    rw [eq_of_map_eq (fun child _ _ => toJson_inj (m := child)) hchildren]
  | file a, file b, h => by
    simp only [toJson, object.injEq, List.cons.injEq, Prod.mk.injEq] at h
    rw [Leaf.toJson_inj h.2.1.2]
  -- The first field tells a directory from a module.
  | directory _ _, file _, h => by simp [toJson] at h
  | file _, directory _ _, h => by simp [toJson] at h

theorem Tree.toJson_inj {s t : Tree} (h : s.toJson = t.toJson) : s = t := by
  obtain ⟨hpath, hchildren⟩ := document_inj h
  cases s
  cases t
  rw [mk.injEq]
  exact ⟨hpath, eq_of_map_eq (fun _ _ _ => Node.toJson_inj) hchildren⟩

/-- The fields of a result determine its parts. -/
theorem DependencyTree.toJson_inj {s t : DependencyTree} (h : s.toJson = t.toJson) : s = t := by
  simp only [toJson, object.injEq, List.cons.injEq, Prod.mk.injEq] at h
  cases s
  cases t
  rw [mk.injEq]
  exact ⟨Tree.toJson_inj h.1.2, OrderedMap.toJson_inj Leaf.toJson_inj h.2.1.2⟩

theorem ModuleGraph.toJson_inj {g g' : ModuleGraph} (h : g.toJson = g'.toJson) : g = g' := by
  simp only [toJson, object.injEq, List.cons.injEq, Prod.mk.injEq] at h
  cases g
  cases g'
  rw [mk.injEq]
  exact ⟨Leaf.toJson_inj h.1.2, OrderedMap.toJson_inj Leaf.toJson_inj h.2.1.2⟩

/-! ## Documents are plain -/

theorem Tree.isPlain_document {path : Path} {documents : List Json}
    (h : ∀ d ∈ documents, d.IsPlain) : (document path documents).IsPlain :=
  .object (by simp [Path.toJson, IsPlain.string, IsPlain.array h])

theorem Node.isPlain_toJson : ∀ n : Node, n.toJson.IsPlain
  | directory path children => by
    have hchildren : ∀ d ∈ children.map toJson, d.IsPlain :=
      List.forall_mem_map.mpr fun child _ => isPlain_toJson child
    rw [toJson]
    exact .object (by simp [IsPlain.string, Tree.isPlain_document hchildren])
  | file leaf => by
    rw [toJson]
    exact .object (by simp [IsPlain.string, leaf.isPlain_toJson])

theorem Tree.isPlain_toJson (t : Tree) : t.toJson.IsPlain :=
  isPlain_document (List.forall_mem_map.mpr fun child _ => child.isPlain_toJson)

theorem isPlain_modules (m : OrderedMap ModuleId Leaf) : (m.toJson Leaf.toJson).IsPlain :=
  OrderedMap.isPlain_toJson fun e _ => e.2.isPlain_toJson

theorem DependencyTree.isPlain_toJson (t : DependencyTree) : t.toJson.IsPlain :=
  .object (by simp [t.root.isPlain_toJson, isPlain_modules])

theorem ModuleGraph.isPlain_toJson (g : ModuleGraph) : g.toJson.IsPlain :=
  .object (by simp [g.root.isPlain_toJson, isPlain_modules])

/-! ## Texts -/

/-- **Values that are known by what is printed of them.** -/
structure IsUnambiguous {α : Type} (toJson : α → Json) : Prop where
  /-- Both layouts are read as the document of the value. -/
  parse_eq : ∀ a, parse (toJson a).compact = some (toJson a) ∧
    parse (toJson a).pretty = some (toJson a)
  /-- Equal texts are printed of equal values only, whatever commands print them. -/
  eq_of_render_eq : ∀ (i j : Invocation) (a b : α), i.render (toJson a) = j.render (toJson b) → a = b

theorem parse_invocation_render {document : Json} (h : document.IsPlain) (i : Invocation) :
    parse (i.render document) = some document := by
  rw [Invocation.render]
  split
  · exact parse_render Style.addsBlanks_compact h
  · exact parse_render Style.addsBlanks_pretty h

/-- It is enough to look at documents. -/
theorem IsUnambiguous.of_documents {α : Type} {toJson : α → Json} (hplain : ∀ a, (toJson a).IsPlain)
    (hinj : ∀ a b, toJson a = toJson b → a = b) : IsUnambiguous toJson where
  parse_eq a := ⟨parse_render Style.addsBlanks_compact (hplain a),
    parse_render Style.addsBlanks_pretty (hplain a)⟩
  eq_of_render_eq i j a b h := by
    have hread := parse_invocation_render (hplain a) i
    rw [h, parse_invocation_render (hplain b) j] at hread
    exact hinj a b (Option.some.inj hread).symm

/-- **What is printed of a tree or of a graph determines it.** -/
theorem results_unambiguous :
    IsUnambiguous DependencyTree.toJson ∧ IsUnambiguous ModuleGraph.toJson :=
  ⟨.of_documents DependencyTree.isPlain_toJson fun _ _ => DependencyTree.toJson_inj,
    .of_documents ModuleGraph.isPlain_toJson fun _ _ => ModuleGraph.toJson_inj⟩

end ImportAtlas
