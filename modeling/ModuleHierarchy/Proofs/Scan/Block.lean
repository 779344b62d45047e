/-
ModuleHierarchy/Proofs/Scan/Block.lean

What both passes make of modules that are written one after the other.  A `Block` is a list of
tokens from `module` to `endmodule` with neither word in between.  The first pass declares the
names of the blocks (`declarations_blocks`), and the second pass finds in each block the
instantiations that stand in it (`findings_blocks`): nothing is carried from one block to the
next, although the pass looks two tokens ahead.  For behind the last name in a block stands
`endmodule`, and what follows that is `module`, which does not continue an instantiation.

`instances` reads the instantiations off the positions of a list, as `placedAt?` does, but
without asking for the module that they stand in.  Where the names of the blocks differ, what is
placed in the modules of a name is what the block of that name places (`placedIn_blocks`).
-/
import ModuleHierarchy.Proofs.Scan.Children

namespace ModuleHierarchy.Scan

variable {defs : List String} {ts suf : List Token} {t name : Token}

/-! ### Instantiations in a list of tokens -/

/-- The token at a position, if it is one of the names and goes on like an instantiation. -/
def instanceAt? (defs : List String) (ts : List Token) (i : Nat) : Option Token :=
  ts[i]?.filter fun t => t.text ∈ defs ∧
    ((ts[i + 1]?.any (·.isPlainName) ∧ ts[i + 2]?.any (·.text == "(")) ∨
      ts[i + 1]?.any (·.text == "#("))

/-- The tokens that go on like an instantiation of one of the names, in order. -/
def instances (defs : List String) (ts : List Token) : List Token :=
  (List.range ts.length).filterMap (instanceAt? defs ts)

theorem instanceAt?_cons_zero (defs : List String) (t : Token) (ts : List Token) :
    instanceAt? defs (t :: ts) 0 = if places defs t ts then some t else none := by
  cases ts with
  | nil => simp [instanceAt?, places, continuesInstantiation]
  | cons next ts =>
    simp [instanceAt?, places, continuesInstantiation, Option.filter, Token.spells,
      Token.overrideMark, List.head?_eq_getElem?]

theorem instances_cons (defs : List String) (t : Token) (ts : List Token) :
    instances defs (t :: ts) = (if places defs t ts then [t] else []) ++ instances defs ts := by
  have hrest : instanceAt? defs (t :: ts) ∘ Nat.succ = instanceAt? defs ts := rfl
  rw [instances, List.length_cons, List.range_succ_eq_map, List.filterMap_cons,
    List.filterMap_map, hrest, instanceAt?_cons_zero, instances]
  by_cases hp : places defs t ts = true
  · simp [hp]
  · simp [hp]

theorem places_of_notMem (h : t.text ∉ defs) : places defs t ts = false := by
  simp [places, h]

/-! ### Blocks -/

/-- The token is neither `module` nor `endmodule`. -/
def Ordinary (t : Token) : Prop :=
  t.text ≠ "module" ∧ t.text ≠ "endmodule"

instance (t : Token) : Decidable (Ordinary t) := by
  unfold Ordinary; infer_instance

/-- A module from `module` to `endmodule`.  Its name is an identifier, and neither the name nor a
token of the body is one of the two words. -/
structure Block where
  opening : Token
  name : Token
  body : List Token
  closing : Token
  opening_text : opening.text = "module"
  name_kind : name.kind = .ident
  name_ordinary : Ordinary name
  body_ordinary : ∀ t ∈ body, Ordinary t
  closing_text : closing.text = "endmodule"

/-- The tokens of a block. -/
def Block.tokens (b : Block) : List Token :=
  b.opening :: b.name :: (b.body ++ [b.closing])

/-- The tokens of blocks that are written one after the other. -/
def blockTokens (bs : List Block) : List Token :=
  bs.flatMap Block.tokens

/-- The names of blocks. -/
def blockNames (bs : List Block) : List String :=
  bs.map (·.name.text)

theorem blockTokens_cons (b : Block) (bs : List Block) :
    blockTokens (b :: bs) =
      b.opening :: b.name :: (b.body ++ b.closing :: blockTokens bs) := by
  simp [blockTokens, Block.tokens]

theorem Ordinary.not_spells_module (h : Ordinary t) : ¬ t.spells Token.moduleWord = true :=
  fun ht => h.1 (eq_of_beq ht)

theorem Ordinary.not_spells_endmodule (h : Ordinary t) : ¬ t.spells Token.endmoduleWord = true :=
  fun ht => h.2 (eq_of_beq ht)

theorem Block.closing_spells (b : Block) : b.closing.spells Token.endmoduleWord = true :=
  beq_iff_eq.2 b.closing_text

theorem Block.opening_spells (b : Block) : b.opening.spells Token.moduleWord = true :=
  beq_iff_eq.2 b.opening_text

theorem Block.opening_not_spells_endmodule (b : Block) :
    ¬ b.opening.spells Token.endmoduleWord = true := by
  rw [Token.spells, b.opening_text]
  decide

theorem Block.closing_not_spells_module (b : Block) :
    ¬ b.closing.spells Token.moduleWord = true := by
  rw [Token.spells, b.closing_text]
  decide

/-! ### The first pass -/

theorem declarations_cons_of_not_module (h : ¬ t.spells Token.moduleWord = true)
    (ts : List Token) : declarations (t :: ts) = declarations ts := by
  cases ts with
  | nil => rfl
  | cons next ts => rw [declarations, if_neg h]

theorem declarations_body_append {body : List Token} (h : ∀ t ∈ body, Ordinary t)
    (ts : List Token) : declarations (body ++ ts) = declarations ts := by
  induction body with
  | nil => rfl
  | cons t body ih =>
    rw [List.cons_append,
      declarations_cons_of_not_module (h t List.mem_cons_self).not_spells_module,
      ih fun u hu => h u (List.mem_cons_of_mem t hu)]

/-- The declared names are those of the blocks. -/
theorem declarations_blocks (bs : List Block) :
    declarations (blockTokens bs) = bs.map Block.name := by
  induction bs with
  | nil => rfl
  | cons b bs ih =>
    rw [blockTokens_cons, declarations, if_pos b.opening_spells,
      declarations_body_append b.body_ordinary,
      declarations_cons_of_not_module b.closing_not_spells_module, ih, List.map_cons]

theorem definitions_blocks (bs : List Block) :
    definitions (blockTokens bs) = Names.ofList (blockNames bs) := by
  rw [definitions, declarations_blocks, List.map_map]
  rfl

theorem module_notMem_definitions_blocks (bs : List Block) :
    "module" ∉ definitions (blockTokens bs) := by
  rw [definitions_blocks, Names.mem_ofList, blockNames, List.mem_map]
  rintro ⟨b, -, hname⟩
  exact b.name_ordinary.1 hname

/-! ### The second pass -/

/-- In front of `endmodule` an instantiation is complete if it is to be one: what follows is no
opening parenthesis. -/
theorem continuesInstantiation_append {closing : Token}
    (hclosing : closing.spells Token.endmoduleWord = true)
    (hsuf : suf.head?.any (·.spells "(") = false) (body : List Token) :
    continuesInstantiation (body ++ closing :: suf) =
      continuesInstantiation (body ++ [closing]) := by
  -- two tokens are looked at, so what follows `closing` can only count behind an empty body
  match body with
  | [] =>
    have hmark : closing.spells Token.overrideMark = false := by
      rw [Token.spells, eq_of_beq hclosing]
      decide
    simp [continuesInstantiation, hsuf, hmark]
  | [next] => rfl
  | next :: next' :: body => rfl

theorem places_append {closing : Token} (hclosing : closing.spells Token.endmoduleWord = true)
    (hsuf : suf.head?.any (·.spells "(") = false) (body : List Token) :
    places defs t (body ++ closing :: suf) = places defs t (body ++ [closing]) := by
  rw [places, places, continuesInstantiation_append hclosing hsuf]

/-- From the name of a block on, the pass finds the instantiations of the block and then goes on
outside of every module. -/
theorem findingsFrom_body {closing : Token} {body : List Token}
    (hclosing : closing.spells Token.endmoduleWord = true)
    (hsuf : suf.head?.any (·.spells "(") = false) (hbody : ∀ t ∈ body, Ordinary t) :
    findingsFrom defs (some name) (body ++ closing :: suf) =
      (instances defs (body ++ [closing])).map (fun t => Finding.link ⟨name, t⟩) ++
        findingsFrom defs none suf := by
  induction body with
  | nil =>
    have hnone : instances defs [closing] = [] := by
      rw [instances_cons]
      simp [places, continuesInstantiation, instances]
    rw [List.nil_append, List.nil_append, findingsFrom_of_closing hclosing, hnone]
    rfl
  | cons t body ih =>
    have ht := hbody t List.mem_cons_self
    have hheader : header? t (body ++ closing :: suf) = none := by
      rw [header?, if_neg ht.not_spells_module]
    rw [List.cons_append, findingsFrom_of_body ht.not_spells_endmodule hheader,
      ih fun u hu => hbody u (List.mem_cons_of_mem t hu), places_append hclosing hsuf,
      List.cons_append, instances_cons, List.map_append, List.append_assoc]
    by_cases hp : places defs t (body ++ [closing]) = true
    · simp [hp]
    · simp [hp]

theorem Block.findingsFrom_append (b : Block) (hmodule : "module" ∉ defs)
    (hsuf : suf.head?.any (·.spells "(") = false) :
    findingsFrom defs none (b.opening :: b.name :: (b.body ++ b.closing :: suf)) =
      (instances defs b.tokens).map (fun t => Finding.link ⟨b.name, t⟩) ++
        findingsFrom defs none suf := by
  have hheader : header? b.opening (b.name :: (b.body ++ b.closing :: suf)) = some b.name := by
    rw [header?, if_pos b.opening_spells]
    simp [b.name_kind]
  have hinside : ∀ t ∈ b.name :: b.body, Ordinary t := by
    intro t ht
    rcases List.mem_cons.1 ht with rfl | ht
    · exact b.name_ordinary
    · exact b.body_ordinary t ht
  have hopening : places defs b.opening (b.name :: (b.body ++ [b.closing])) = false :=
    places_of_notMem (by rwa [b.opening_text])
  rw [findingsFrom_of_opening b.opening_not_spells_endmodule hheader, Option.map_none,
    Option.toList_none, List.nil_append, ← List.cons_append,
    findingsFrom_body b.closing_spells hsuf hinside, tokens, instances_cons, hopening]
  rfl

/-- The pass finds in each block the instantiations that stand in it. -/
theorem findings_blocks (hmodule : "module" ∉ defs) (bs : List Block) :
    findings defs (blockTokens bs) =
      bs.flatMap fun b => (instances defs b.tokens).map fun t => Finding.link ⟨b.name, t⟩ := by
  rw [findings]
  induction bs with
  | nil => rfl
  | cons b bs ih =>
    have hsuf : (blockTokens bs).head?.any (·.spells "(") = false := by
      cases bs with
      | nil => rfl
      | cons b' bs =>
        rw [blockTokens_cons, List.head?_cons, Option.any_some, Token.spells, b'.opening_text]
        decide
    rw [blockTokens_cons, b.findingsFrom_append hmodule hsuf, ih, List.flatMap_cons]

/-! ### The modules placed in a block -/

/-- The names of the modules placed in a block. -/
def Block.placed (defs : List String) (b : Block) : List String :=
  (instances defs b.tokens).map Token.text

theorem names_links_blocks (hmodule : "module" ∉ defs) (bs : List Block) :
    (links defs (blockTokens bs)).map Link.names =
      bs.flatMap fun b => (b.placed defs).map fun c => (b.name.text, c) := by
  rw [links, findings_blocks hmodule, List.filterMap_flatMap, List.map_flatMap]
  refine congrArg (List.flatMap · bs) (funext fun b => ?_)
  simp [Block.placed, Finding.link?, Link.names, List.filterMap_map, Function.comp_def]

/-- Where names differ, what is placed in the modules of a name is what its block places. -/
theorem placedIn_blocks {b : Block} {bs : List Block} (hmodule : "module" ∉ defs)
    (hnames : (blockNames bs).Nodup) (hb : b ∈ bs) :
    placedIn defs (blockTokens bs) b.name.text = b.placed defs := by
  rw [← offered_links, names_links_blocks hmodule]
  exact Hierarchy.offered_flatMap_of_mem hnames hb

theorem placedIn_blocks_of_notMem {n : String} {bs : List Block} (hmodule : "module" ∉ defs)
    (hn : n ∉ blockNames bs) : placedIn defs (blockTokens bs) n = [] := by
  rw [← offered_links, names_links_blocks hmodule]
  exact Hierarchy.offered_flatMap_of_notMem hn

end ModuleHierarchy.Scan
