import ImportAtlas.Proofs.Dot.Reader
import ImportAtlas.Proofs.Graph.Insertion
import Mathlib.Logic.Basic

/-!
# What the text of a diagram says

The text of a diagram is read back statement by statement, whatever texts its nodes hold. For the
diagram of a graph this gives the files and the imports that were drawn.

## Key results

- `dotNodeName_injective`: two nodes of one name are the same
- `DotDiagram.readDot_text`: the statements of any diagram
- `ImportGraph.readDot_dotText`: those of the diagram of a graph, and that equal texts draw the same
-/

namespace ImportAtlas

/-! ## Names of nodes -/

/-- None of the characters that end a name is a digit. -/
theorem isDotNameChar_of_isDigit {c : Char} (hc : c.isDigit = true) : isDotNameChar c = true := by
  by_contra hname
  -- What is no part of a name is a quote, a mark or white space, and none of these is a digit.
  have hend : c = '"' ∨ c ∈ ['\x7b', '\x7d', '[', ']', '=', ',', ';'] ∨ c.isWhitespace = true := by
    simp only [isDotNameChar, isDotMark, Bool.and_eq_true, bne_iff_ne, Bool.not_eq_true',
      List.contains_eq_mem, decide_eq_false_iff_not, not_and_or, not_not,
      Bool.not_eq_false] at hname
    exact or_assoc.1 hname
  obtain rfl | hmark | hspace := hend
  · exact absurd hc (by decide)
  · have hmarks : ['\x7b', '\x7d', '[', ']', '=', ',', ';'].all (fun d => !d.isDigit) = true := by
      decide
    have hdigit := List.all_eq_true.1 hmarks c hmark
    rw [hc] at hdigit
    cases hdigit
  · have hspaces : c = ' ' ∨ c = '\t' ∨ c = '\r' ∨ c = '\n' := by
      simpa [Char.isWhitespace, or_assoc] using hspace
    obtain rfl | rfl | rfl | rfl := hspaces <;> exact absurd hc (by decide)

/-- A node is named by the digits of its id. -/
theorem toList_dotNodeName (id : Int) :
    (dotNodeName id).toList =
      'n' :: if 0 ≤ id then Nat.toDigits 10 id.toNat else '-' :: Nat.toDigits 10 (-id).toNat := by
  rw [dotNodeName, String.toList_append, Int.toString_eq_repr, Int.repr_eq_if]
  split <;> simp [Nat.toList_repr]

/-- Behind its first letter the name of a node holds digits only, and a sign. -/
theorem toList_dotNodeName_eq_cons (id : Int) :
    ∃ w, (dotNodeName id).toList = 'n' :: w ∧ ∀ c ∈ w, c = '-' ∨ c.isDigit = true := by
  have hdigits : ∀ n : Nat, ∀ c ∈ Nat.toDigits 10 n, c = '-' ∨ c.isDigit = true := fun n c hc =>
    .inr (Nat.isDigit_of_mem_toDigits (by omega) (by omega) hc)
  refine ⟨_, toList_dotNodeName id, ?_⟩
  split
  · exact hdigits _
  · exact List.forall_mem_cons.2 ⟨.inl rfl, hdigits _⟩

/-- So its name needs no quotes. -/
theorem isDotName_dotNodeName (id : Int) : IsDotName (dotNodeName id) := by
  obtain ⟨w, hw, hchars⟩ := toList_dotNodeName_eq_cons id
  -- A node's name begins with a letter that no mark begins with.
  have hne : ∀ s : String, s.toList.head? ≠ some 'n' → dotNodeName id ≠ s := by
    rintro s hs rfl
    rw [hw] at hs
    exact hs rfl
  refine ⟨hne "" (by decide), hne "->" (by decide), ?_⟩
  rw [hw]
  refine List.forall_mem_cons.2 ⟨by decide, fun c hc => ?_⟩
  obtain rfl | hdigit := hchars c hc
  · decide
  · exact isDotNameChar_of_isDigit hdigit

/-- No node has a name that stands for everything of a kind. -/
theorem dotNodeName_not_mem_dotKinds (id : Int) : dotNodeName id ∉ dotKinds := by
  intro h
  obtain ⟨w, hw, hchars⟩ := toList_dotNodeName_eq_cons id
  -- After its first character a keyword has a letter, and a node's name has digits and a sign.
  have hletter : ∀ kind ∈ dotKinds,
      kind.toList.tail.any (fun c => c != '-' && !c.isDigit) = true := by
    decide
  obtain ⟨c, hc, hother⟩ := List.any_eq_true.1 (hletter _ h)
  simp only [Bool.and_eq_true, bne_iff_ne, Bool.not_eq_true'] at hother
  obtain ⟨hsign, hdigit⟩ := hother
  rw [hw, List.tail_cons] at hc
  obtain hsign' | hdigit' := hchars c hc
  · exact hsign hsign'
  · exact absurd hdigit' (by rw [hdigit]; exact Bool.false_ne_true)

/-- Numbers with the same digits are the same. -/
theorem toDigits_injective {m n : Nat} (h : Nat.toDigits 10 m = Nat.toDigits 10 n) : m = n := by
  rw [← Nat.ofDigitChars_ten_toDigits (n := m), h, Nat.ofDigitChars_ten_toDigits]

/-- Two nodes of one name are the same. -/
theorem dotNodeName_injective {a b : Int} (h : dotNodeName a = dotNodeName b) : a = b := by
  have hsign : ∀ (m n : Nat) (s : List Char), Nat.toDigits 10 m ≠ '-' :: s := fun m n s hm => by
    have hdigit : '-'.isDigit = true :=
      Nat.isDigit_of_mem_toDigits (b := 10) (n := m) (by omega) (by omega) (by simp [hm])
    exact absurd hdigit (by decide)
  have hlist := congrArg String.toList h
  rw [toList_dotNodeName, toList_dotNodeName, List.cons.injEq] at hlist
  obtain ⟨-, hlist⟩ := hlist
  -- Digits never begin with a sign, so ids of different sign are told apart.
  split at hlist <;> split at hlist
  · have := toDigits_injective hlist
    omega
  · exact absurd hlist (hsign _ 0 _)
  · exact absurd hlist.symm (hsign _ 0 _)
  · have := toDigits_injective (List.cons.inj hlist).2
    omega

/-! ## Statements of a diagram -/

/-- Attributes are named without quotes, too. -/
theorem DotNode.isDotName_of_mem_attributes {n : DotNode} {a : String × String}
    (ha : a ∈ n.attributes) : IsDotName a.1 := by
  have hnames : ∀ name ∈ ["label", "URL", "tooltip"], IsDotName name := by
    decide
  have hmem := (List.mem_filter.1 ha).1
  apply hnames
  simpa using List.mem_map_of_mem (f := (·.1)) hmem

/-- The statement of a node is read as a node with its attributes. -/
theorem DotNode.says_text (n : DotNode) :
    Says n.text.toList [.node (dotNodeName n.id) n.attributes] := by
  have hbody := reads_attributes fun a ha => n.isDotName_of_mem_attributes ha
  have hopen : Reads [' ', '['] [.mark '['] := rfl
  have hclose : Reads [']', ';'] [.mark ']', .mark ';'] := rfl
  refine ⟨.name (dotNodeName n.id) :: (.mark '[' :: (attributeTokens n.attributes ++
    [.mark ']', .mark ';'])), ?_, ?_⟩
  · have hrest := hopen.append (hbody.append hclose)
    have := reads_name_append (isDotName_dotNodeName n.id) (by decide) hrest
    simpa [text, List.append_assoc] using this
  · have hstatement : DotPlace.read (.within (dotNodeName n.id) n.attributes) (.mark ']') =
        some ([.node (dotNodeName n.id) n.attributes], .outside) := by
      rw [DotPlace.read, DotStatement.ofAttributes, if_neg (dotNodeName_not_mem_dotKinds n.id)]
    -- The bracket opens the node's list, the attributes fill it and the last bracket closes it.
    have hopening : feed DotPlace.read .outside [.name (dotNodeName n.id), .mark '['] =
        some ([], .within (dotNodeName n.id) []) := rfl
    have hclosing : feed DotPlace.read .outside [.mark ';'] = some ([], .outside) := rfl
    have hattributes := feed_attributeTokens (dotNodeName n.id) [] n.attributes
    exact feed_append hopening (feed_append hattributes (feed_cons hstatement hclosing))

/-- The statement of an edge is read as that edge. -/
theorem DotEdge.says_text (e : DotEdge) :
    Says e.text.toList [.edge (dotNodeName e.source) (dotNodeName e.target)] := by
  have harrow : Reads [' ', '-', '>', ' '] [.arrow] := rfl
  have hend : Reads [';'] [.mark ';'] := rfl
  have htarget := reads_name_append (isDotName_dotNodeName e.target) (by decide) hend
  have hsource := reads_name_append (isDotName_dotNodeName e.source) (by decide)
    (harrow.append htarget)
  refine ⟨[.name (dotNodeName e.source), .arrow, .name (dotNodeName e.target), .mark ';'], ?_, rfl⟩
  simpa [text] using hsource

namespace DotDiagram

/-- What the fixed attributes of every diagram say. -/
def fixedStatements : List DotStatement :=
  [.setting "fontname" "sans-serif", .setting "rankdir" "LR", .setting "page" "130.0,130.0",
    .defaults "node" [("fontcolor", "black"), ("fontname", "sans-serif"), ("fontsize", "8.0"),
      ("shape", "plain")],
    .defaults "edge" [("arrowhead", "normal"), ("arrowsize", "0.5"), ("color", "gray"),
      ("fontname", "sans-serif"), ("weight", "0.1")]]

/-- What a diagram says, statement by statement. -/
def content (d : DotDiagram) : DotContent where
  title := d.name
  statements := fixedStatements ++
    d.nodes.map (fun n => .node (dotNodeName n.id) n.attributes) ++
    d.edges.map fun e => .edge (dotNodeName e.source) (dotNodeName e.target)

/-- The line that a statement stands on. -/
def line (statement : String) : List Char :=
  [' ', ' '] ++ statement.toList ++ ['\n']

/-- A line of the diagram is indented and ended. -/
theorem toList_line (s : String) : ("  " ++ s ++ "\n").toList = line s := by
  rw [String.toList_append, String.toList_append]
  rfl

/-- The diagram is a head, its lines and a closing brace. -/
theorem toList_text (d : DotDiagram) :
    d.text.toList = "strict digraph ".toList ++ (d.name.toList ++ (" \x7b\n".toList ++
      (fixedAttributes.flatMap line ++ d.nodes.flatMap (fun n => line n.text) ++
        d.edges.flatMap (fun e => line e.text) ++ "\x7d\n".toList))) := by
  have hlines : (String.join (d.statements.map fun s => "  " ++ s ++ "\n")).toList =
      fixedAttributes.flatMap line ++ d.nodes.flatMap (fun n => line n.text) ++
        d.edges.flatMap (fun e => line e.text) := by
    rw [String.toList_join, List.flatMap_map, statements, List.flatMap_append,
      List.flatMap_append, List.flatMap_map, List.flatMap_map]
    simp only [toList_line]
  -- Evaluating the literals is of no use here.
  delta text
  rw [String.toList_append, String.toList_append, String.toList_append, String.toList_append,
    hlines]
  simp only [List.append_assoc]

/-- The first lines say what all diagrams say. -/
theorem says_fixedAttributes : Says (fixedAttributes.flatMap line) fixedStatements := by
  have hread : (feed DotMode.read .between (fixedAttributes.flatMap line)).bind (fun r =>
        if r.2 = .between then feed DotPlace.read .outside r.1 else none) =
      some (fixedStatements, .outside) := by
    decide +kernel
  obtain ⟨⟨tokens, mode⟩, hreads, hfeed⟩ := Option.bind_eq_some_iff.1 hread
  split at hfeed
  · next hmode =>
    obtain rfl : mode = .between := hmode
    exact ⟨tokens, hreads, hfeed⟩
  · cases hfeed

/-- White space around a statement says nothing. -/
theorem says_line {s : String} {statement : DotStatement} (h : Says s.toList [statement]) :
    Says (line s) [statement] := by
  have hindent : Says [' ', ' '] [] := ⟨[], rfl, rfl⟩
  have hend : Says ['\n'] [] := ⟨[], rfl, rfl⟩
  exact (hindent.append h).append hend

/-- The text of a diagram is read back whole, whatever texts stand in it. -/
theorem readDot_text {d : DotDiagram} (hname : IsDotName d.name) :
    readDot d.text = some d.content := by
  -- The statements stand one a line; each leads the reader back to where it was.
  have hnodes := says_flatMap d.nodes fun n _ => says_line n.says_text
  have hedges := says_flatMap d.edges fun e _ => says_line e.says_text
  obtain ⟨tokens, hreads, hfeed⟩ := (says_fixedAttributes.append hnodes).append hedges
  rw [← List.map_eq_flatMap, ← List.map_eq_flatMap] at hfeed
  -- Around them stand the header and the closing brace.
  have hwords : Reads "strict digraph ".toList [.name "strict", .name "digraph"] := rfl
  have hopen : Reads [' ', '\x7b', '\n'] [.mark '\x7b'] := rfl
  have hclose : Reads ['\x7d', '\n'] [.mark '\x7d'] := rfl
  have hheader := reads_name_append hname (by decide) (hopen.append (hreads.append hclose))
  have htext : Reads d.text.toList (.name "strict" :: .name "digraph" :: .name d.name ::
      .mark '\x7b' :: (tokens ++ [.mark '\x7d'])) := by
    rw [toList_text]
    exact hwords.append hheader
  have hend : feed DotPlace.read .outside [.mark '\x7d'] = some ([], .closed) := rfl
  rw [readDot, htext.dotTokens, Option.bind_some, dotContent, feed_append hfeed hend,
    List.append_nil]
  rfl

end DotDiagram

/-! ## Diagrams of graphs -/

namespace DotContent

/-- The nodes that a text declares, with their attributes. -/
def nodes (c : DotContent) : List (String × List (String × String)) :=
  c.statements.filterMap fun
    | .node name attributes => some (name, attributes)
    | _ => none

/-- The edges of a text, by the names of their ends. -/
def edges (c : DotContent) : List (String × String) :=
  c.statements.filterMap fun
    | .edge source target => some (source, target)
    | _ => none

end DotContent

namespace ImportGraph

variable {g h : ImportGraph} {linkBase : Option String}

/-- The attributes that a file is drawn with: its base name, the address it links to if there is a
base for it, and its relative path. -/
def drawnAttributes (linkBase : Option String) (baseName relativePath : String) :
    List (String × String) :=
  let base := linkBase.getD ""
  ("label", baseName) :: ((if base = "" then [] else [("URL", base ++ relativePath)]) ++
    [("tooltip", relativePath)])

/-- The ends of an import, if its target belongs to the graph. -/
def drawnEnds (e : ImportEdge) : Option (Int × Int) :=
  e.targetId.map fun target => (e.importerId, target)

/-- What is to be read in the text of the diagram of a graph. -/
def drawnContent (g : ImportGraph) (linkBase : Option String) : DotContent where
  title := "imports"
  statements := DotDiagram.fixedStatements ++
    g.files.map (fun f =>
      .node (dotNodeName f.id) (drawnAttributes linkBase f.baseName f.relativePath)) ++
    (g.edges.filterMap drawnEnds).map fun e => .edge (dotNodeName e.1) (dotNodeName e.2)

/-- What a node shows tells its name and its path. -/
theorem drawnAttributes_injective {base base' path path' : String}
    (h : drawnAttributes linkBase base path = drawnAttributes linkBase base' path') :
    base = base' ∧ path = path' := by
  obtain ⟨hlabel, hrest⟩ := List.cons.inj h
  have htooltip := congrArg List.getLast? hrest
  rw [List.getLast?_concat, List.getLast?_concat, Option.some.injEq] at htooltip
  exact ⟨(Prod.mk.inj hlabel).2, (Prod.mk.inj htooltip).2⟩

/-- A node holds all that is drawn of its file. -/
theorem drawnNode_injective (linkBase : Option String) :
    Function.Injective fun f : Int × String × String =>
      (dotNodeName f.1, drawnAttributes linkBase f.2.1 f.2.2) := by
  rintro ⟨id, base, path⟩ ⟨id', base', path'⟩ heq
  obtain ⟨hname, hattributes⟩ := Prod.mk.inj heq
  obtain ⟨rfl, rfl⟩ := drawnAttributes_injective hattributes
  obtain rfl := dotNodeName_injective hname
  rfl

/-- None of the texts that a sound file is drawn with is left out. -/
theorem attributes_node {f : SourceFile} (hf : f.fault? = none) :
    DotNode.attributes { id := f.id, label := f.baseName, url := linkTo linkBase f.relativePath
                         tooltip := some f.relativePath } =
      drawnAttributes linkBase f.baseName f.relativePath := by
  obtain ⟨-, hpath, hname⟩ := SourceFile.fault?_eq_none_iff.1 hf
  have hlabel : (f.baseName != "") = true := bne_iff_ne.2 hname
  have htooltip : (f.relativePath != "") = true := bne_iff_ne.2 hpath
  -- Without a base there is no link at all, not even to the path alone.
  by_cases hbase : linkBase.getD "" = ""
  · have hurl : (linkTo linkBase f.relativePath).getD "" = "" := by
      unfold linkTo
      split <;> simp_all
    simp [DotNode.attributes, drawnAttributes, hlabel, htooltip, hurl, hbase]
  · have hurl : (linkTo linkBase f.relativePath).getD "" =
        linkBase.getD "" ++ f.relativePath := by
      unfold linkTo
      split <;> simp_all
    have hlink : (linkBase.getD "" ++ f.relativePath != "") = true :=
      bne_iff_ne.2 fun h => hbase (String.append_eq_empty_iff.1 h).1
    simp [DotNode.attributes, drawnAttributes, hlabel, htooltip, hurl, hbase,
      hlink]

/-- The diagram of a graph without faults holds what is to be drawn, and nothing else. -/
theorem content_diagram (hg : g.Sound) :
    (g.diagram linkBase).content = g.drawnContent linkBase := by
  have hnodes : ((g.diagram linkBase).nodes.map fun n =>
        DotStatement.node (dotNodeName n.id) n.attributes) =
      g.files.map fun f =>
        .node (dotNodeName f.id) (drawnAttributes linkBase f.baseName f.relativePath) := by
    rw [diagram, List.map_map]
    exact List.map_congr_left fun f hf => congrArg _ (attributes_node (hg.file f hf))
  have hedges : ((g.diagram linkBase).edges.map fun e =>
        DotStatement.edge (dotNodeName e.source) (dotNodeName e.target)) =
      (g.edges.filterMap drawnEnds).map fun e =>
        .edge (dotNodeName e.1) (dotNodeName e.2) := by
    rw [diagram, List.map_filterMap, List.map_filterMap]
    refine List.filterMap_congr fun e _ => ?_
    -- An import without a target in the graph is not drawn.
    cases htarget : e.targetId <;> simp [drawnEnds, htarget]
  rw [DotDiagram.content, hnodes, hedges]
  rfl

/-- The nodes of the diagram are the files, in order. -/
theorem nodes_drawnContent :
    (g.drawnContent linkBase).nodes = g.files.map fun f =>
      (dotNodeName f.id, drawnAttributes linkBase f.baseName f.relativePath) := by
  simp [DotContent.nodes, drawnContent, DotDiagram.fixedStatements, List.filterMap_map]

/-- Its edges are the imports between files, in order. -/
theorem edges_drawnContent :
    (g.drawnContent linkBase).edges =
      (g.edges.filterMap drawnEnds).map fun e => (dotNodeName e.1, dotNodeName e.2) := by
  simp [DotContent.edges, drawnContent, DotDiagram.fixedStatements, List.filterMap_map]

/-- Where the same is drawn, the files have the same ids and names in the same order, and the
imports between them the same ends. -/
theorem drawn_of_drawnContent_eq (h' : g.drawnContent linkBase = h.drawnContent linkBase) :
    (g.files.map fun f => (f.id, f.baseName, f.relativePath)) =
        h.files.map (fun f => (f.id, f.baseName, f.relativePath)) ∧
      g.edges.filterMap drawnEnds = h.edges.filterMap drawnEnds := by
  have hnodes := congrArg DotContent.nodes h'
  have hedges := congrArg DotContent.edges h'
  rw [nodes_drawnContent, nodes_drawnContent] at hnodes
  rw [edges_drawnContent, edges_drawnContent] at hedges
  -- Nodes and edges can be told by what is drawn of them.
  constructor
  · apply List.map_injective_iff.2 (drawnNode_injective linkBase)
    rw [List.map_map, List.map_map]
    exact hnodes
  · refine List.map_injective_iff.2 ?_ hedges
    rintro ⟨a, b⟩ ⟨a', b'⟩ heq
    obtain ⟨hsource, htarget⟩ := Prod.mk.inj heq
    exact Prod.ext (dotNodeName_injective hsource) (dotNodeName_injective htarget)

/-- Both ends of an edge that is drawn are nodes that are drawn. -/
theorem Consistent.mem_nodes_of_mem_edges (hg : g.Consistent) {source target : String}
    (he : (source, target) ∈ (g.drawnContent linkBase).edges) :
    source ∈ (g.drawnContent linkBase).nodes.map (·.1) ∧
      target ∈ (g.drawnContent linkBase).nodes.map (·.1) := by
  have hnames : (g.drawnContent linkBase).nodes.map (·.1) =
      (g.files.map (·.id)).map dotNodeName := by
    rw [nodes_drawnContent, List.map_map, List.map_map]
    rfl
  -- An edge is drawn for an import with a target, and both of its ends are files.
  rw [edges_drawnContent, List.mem_map] at he
  obtain ⟨⟨importer, id⟩, hends, heq⟩ := he
  obtain ⟨rfl, rfl⟩ := Prod.mk.inj heq
  obtain ⟨e, he, hends⟩ := List.mem_filterMap.1 hends
  obtain ⟨id', hid', heq⟩ := Option.map_eq_some_iff.1 hends
  obtain ⟨rfl, rfl⟩ := Prod.mk.inj heq
  rw [hnames]
  exact ⟨List.mem_map_of_mem (hg.importer_mem e he),
    List.mem_map_of_mem (hg.target_mem e he id' hid')⟩

/-- The text of the diagram of a graph is read back as the files and the imports that it draws, each
edge between two nodes that the text declares; and two graphs whose texts are the same agree in all
that is drawn. -/
theorem readDot_dotText (is : List Insertion) (his : ∀ i ∈ is, i.IsSound)
    (linkBase : Option String) :
    let g := after is
    readDot (g.dotText linkBase) = some (g.drawnContent linkBase) ∧
      (∀ source target, (source, target) ∈ (g.drawnContent linkBase).edges →
        source ∈ (g.drawnContent linkBase).nodes.map (·.1) ∧
          target ∈ (g.drawnContent linkBase).nodes.map (·.1)) ∧
      ∀ js, (∀ j ∈ js, j.IsSound) → (after js).dotText linkBase = g.dotText linkBase →
        ((after js).files.map fun f => (f.id, f.baseName, f.relativePath)) =
            g.files.map (fun f => (f.id, f.baseName, f.relativePath)) ∧
          (after js).edges.filterMap drawnEnds = g.edges.filterMap drawnEnds := by
  have hread : ∀ is : List Insertion, (∀ i ∈ is, i.IsSound) →
      readDot ((after is).dotText linkBase) = some ((after is).drawnContent linkBase) := by
    intro is his
    have hname : IsDotName ((after is).diagram linkBase).name :=
      (by decide : IsDotName DotDiagram.defaultName)
    rw [dotText, DotDiagram.readDot_text hname, content_diagram (sound_after his)]
  intro g
  refine ⟨hread is his, fun source target he => ?_, fun js hjs htext => ?_⟩
  · exact (consistent_after is).mem_nodes_of_mem_edges he
  · -- One text cannot be read in two ways.
    have hcontent : some ((after js).drawnContent linkBase) = some (g.drawnContent linkBase) :=
      (hread js hjs).symm.trans (htext ▸ hread is his)
    exact drawn_of_drawnContent_eq (Option.some.inj hcontent)

/-- Three files whose names try to end the quotes they stand in, and imports between them. -/
def insertionsWithMarks : List Insertion :=
  [.file ⟨"/p/\"];n2->n1;", "\"];n2->n1;", "\"];n2->n1;", "", 0⟩,
    .file ⟨"/p/a\\", "a\\", "a\\", "", -3⟩,
    .file ⟨"/p/b\\\"\n\x7d", "b\\\"\n\x7d", "b\\\"\n\x7d", "", 0⟩,
    .edge ⟨1, "\"];n2->n1;", "./a", some .localFile, some (-3), none⟩,
    .edge ⟨-3, "a\\", "x", none, none, none⟩, .edge ⟨2, "b\\\"\n\x7d", "./b", none, some 2, none⟩]

/-- None of these names ends a statement or starts another one. -/
theorem readDot_dotText_of_marks :
    readDot ((after insertionsWithMarks).dotText (some "/\"")) = some ⟨"imports",
      DotDiagram.fixedStatements ++
        [.node "n1" [("label", "\"];n2->n1;"), ("URL", "/\"\"];n2->n1;"),
            ("tooltip", "\"];n2->n1;")],
          .node "n-3" [("label", "a\\"), ("URL", "/\"a\\"), ("tooltip", "a\\")],
          .node "n2" [("label", "b\\\"\n\x7d"), ("URL", "/\"b\\\"\n\x7d"),
            ("tooltip", "b\\\"\n\x7d")],
          .edge "n1" "n-3", .edge "n2" "n2"]⟩ :=
  (readDot_dotText insertionsWithMarks (by decide) _).1.trans (by decide)

end ImportGraph

end ImportAtlas
