import CallExpander.Proofs.Import
import CallExpander.Registry

/-!
# The last binding decides, and every form of a call

What a callee stands for hangs on one name of it, and on the last binding of that name: later bindings
hide earlier ones even where they do not fit the callee. The forms in which an export can be imported and
called are read by different code; what they stand for is what the registry says of the export.
-/

namespace CallExpander

open Node

/-! ## The part that decides -/

/-- What decides what a callee stands for: the object of a member, or else the callee itself. -/
def Node.decidingPart (callee : Node) : Node := ((memberParts? callee).map (·.1)).getD callee

variable {callee : Node} {bs cs : List Binding} {name : String}

/-- Bindings matter by what they say of the part that decides. -/
theorem resolveCallee_of_lookup_eq (h : lookup bs callee.decidingPart = lookup cs callee.decidingPart) :
    resolveCallee bs callee = resolveCallee cs callee := by
  unfold resolveCallee
  cases hparts : memberParts? callee with
  | none =>
    have hpart : callee.decidingPart = callee := by rw [decidingPart, hparts]; rfl
    rw [hpart] at h
    simp only [h]
  | some p =>
    have hpart : callee.decidingPart = p.1 := by rw [decidingPart, hparts]; rfl
    rw [hpart] at h
    simp only [h]

theorem lookup_append (bs cs : List Binding) (n : Node) :
    lookup (bs ++ cs) n = (lookup cs n).or (lookup bs n) := by
  unfold lookup
  split
  · rw [List.reverse_append, List.find?_append]
  · rfl

/-- Without bindings, every call is an ordinary one. -/
theorem resolveCallee_nil (callee : Node) : resolveCallee [] callee = none := by
  have hlookup : ∀ n, lookup [] n = none := by
    intro n
    unfold lookup
    split <;> rfl
  unfold resolveCallee
  split <;> simp only [hlookup]

theorem lookup_of_bound {n : Node} (h : n.form = .ident name true) (bindings : List Binding) :
    lookup bindings n = none := by
  simp only [lookup, h]

/-- A call by a name that a declaration binds is an ordinary one. -/
theorem resolveCallee_of_bound (h : callee.decidingPart.form = .ident name true)
    (bindings : List Binding) : resolveCallee bindings callee = none := by
  have hlookup : lookup bindings callee.decidingPart = lookup [] callee.decidingPart := by
    rw [lookup_of_bound h, lookup_of_bound h]
  rw [resolveCallee_of_lookup_eq hlookup, resolveCallee_nil]

theorem lookup_of_free {n : Node} (h : n.form = .ident name false) (bindings : List Binding) :
    lookup bindings n = bindings.reverse.find? fun b => b.localName == name := by
  simp only [lookup, h]

/-- Of two lists of bindings, the later one decides if it has the name, and the earlier one if not. -/
theorem resolveCallee_append (h : callee.decidingPart.form = .ident name false) (bs cs : List Binding) :
    resolveCallee (bs ++ cs) callee =
      if ∃ b ∈ cs, b.localName = name then resolveCallee cs callee else resolveCallee bs callee := by
  split
  · next hbinds =>
    obtain ⟨b, hb, hname⟩ := hbinds
    refine resolveCallee_of_lookup_eq ?_
    have hsome : (lookup cs callee.decidingPart).isSome = true := by
      rw [lookup_of_free h, List.find?_isSome]
      exact ⟨b, List.mem_reverse.mpr hb, by simpa using hname⟩
    rw [lookup_append, Option.or_of_isSome hsome]
  · next hfree =>
    refine resolveCallee_of_lookup_eq ?_
    have hnone : lookup cs callee.decidingPart = none := by
      rw [lookup_of_free h, List.find?_eq_none]
      intro b hb hname
      exact hfree ⟨b, List.mem_reverse.mp hb, by simpa using hname⟩
    rw [lookup_append, hnone, Option.none_or]

/-! ## Forms of imports and calls -/

/-- An item that imports one thing from a module, and not as a type. -/
def Node.ImportsJust (item : Node) (module : String) (s : ImportSpecifier) : Prop :=
  ∃ decl, item.importDecl? = some decl ∧ decl.typeOnly = false ∧ decl.source.value = module ∧
    decl.specifiers = [s] ∧ Binding.isTypeOnly s = false

/-- The ways to write a member of an object. -/
inductive Node.IsMember (object : Node) (name : String) : Node → Prop
  | dotted {origin place : Origin} {inner : List Node} :
      IsMember object name (.mk .member origin [object, .mk (.name name) place inner])
  | quoted {origin place : Origin} {raw : Option String} {inner : List Node} :
      IsMember object name (.mk .index origin [object, .mk (.str ⟨name, raw⟩) place inner])
  | templated {origin place : Origin} {quasi : Quasi} {rest : List Quasi}
      (hcooked : quasi.cooked = some name) :
      IsMember object name (.mk .index origin [object, .mk (.template (quasi :: rest)) place []])

/-- The ways to import an export of a module and to call it: as a member of a name for the whole module,
be it the default or a namespace, or by a name of its own. No declaration binds the name. -/
inductive CallsExport (module name : String) : Node → Node → Prop
  | ofNamespace {item object callee : Node} {localName : Name}
      (himport : item.ImportsJust module (.namespace localName))
      (hobject : object.form = .ident localName.text false) (hcallee : object.IsMember name callee) :
      CallsExport module name item callee
  | ofDefault {item object callee : Node} {localName : Name}
      (himport : item.ImportsJust module (.default localName))
      (hobject : object.form = .ident localName.text false) (hcallee : object.IsMember name callee) :
      CallsExport module name item callee
  | ofName {item callee : Node} {localName : Name} {imported : Option ExportName} {origin : Origin}
      (himport : item.ImportsJust module (.named localName imported false origin))
      (hname : imported.elim localName.text ExportName.text = name)
      (hcallee : callee.form = .ident localName.text false) :
      CallsExport module name item callee

theorem memberParts?_of_isMember {object : Node} (h : object.IsMember name callee) :
    memberParts? callee = some (object, some name) := by
  cases h with
  | dotted => rfl
  | quoted => rfl
  | templated hcooked => exact congrArg (fun property => some (object, property)) hcooked

theorem memberParts?_of_ident {isBound : Bool} (h : callee.form = .ident name isBound) :
    memberParts? callee = none := by
  obtain ⟨form, origin, parts⟩ := callee
  cases h
  rfl

/-- What the registry says of an export. -/
def Registry.meaning (registry : Registry) (module name : String) : Resolution :=
  if (registry.find? module name).isSome then .known module name else .unknown module name

variable {registry : Registry} {module : String} {macros : List Macro}

theorem find?_names (hmodule : registry.macros? module = some macros) (name : String) :
    (macros.map (·.name)).find? (· == name) = (registry.find? module name).map fun _ => name := by
  rw [Registry.find?, hmodule, Option.bind_some, List.find?_map]
  cases hfind : macros.find? fun m => m.name == name with
  | none => exact congrArg (Option.map _) hfind
  | some m =>
    have hname : m.name = name := by simpa using List.find?_some hfind
    rw [← hname]
    exact congrArg (Option.map _) (hname ▸ hfind)

theorem collectBindings_just {keepImports : Bool} {item : Node} {s : ImportSpecifier}
    (hmodule : registry.macros? module = some macros) (h : item.ImportsJust module s) :
    (collectBindings registry.exports keepImports [item]).1 =
      [Binding.ofSpecifier module (macros.map (·.name)) s] := by
  obtain ⟨decl, hdecl, htype, rfl, hspecifiers, hs⟩ := h
  have hexports : registry.exports decl.source.value = some (macros.map (·.name)) := by
    rw [Registry.exports, hmodule, Option.map_some]
  have hbindings : Binding.ofDecl decl (macros.map (·.name)) =
      [Binding.ofSpecifier decl.source.value (macros.map (·.name)) s] := by
    simp [Binding.ofDecl, hspecifiers, hs]
  simp [collectBindings, retireImport, hdecl, htype, hexports, hbindings]

theorem resolveName_names (hmodule : registry.macros? module = some macros) (name : String) :
    resolveName module name (macros.map (·.name)) = registry.meaning module name := by
  have hsome : (registry.find? module name).isSome = (macros.map (·.name)).contains name := by
    rw [← Option.isSome_map (f := fun _ => name), ← find?_names hmodule, Bool.eq_iff_iff,
      List.find?_isSome, List.contains_iff_mem]
    simp
  rw [resolveName, Registry.meaning, hsome]

theorem lookup_single {n : Node} {b : Binding} (h : n.form = .ident b.localName false) :
    lookup [b] n = some b := by
  simp [lookup_of_free h]

/-- Through a name for the whole module, a member stands for the export of its name. -/
theorem resolveCallee_of_isMember {object : Node} {localName : String}
    (hmodule : registry.macros? module = some macros) (hobject : object.form = .ident localName false)
    (hcallee : object.IsMember name callee) :
    resolveCallee [.namespace localName module (macros.map (·.name))] callee =
      some (registry.meaning module name) := by
  have hlookup := lookup_single (b := .namespace localName module (macros.map (·.name))) hobject
  simp only [resolveCallee, memberParts?_of_isMember hcallee, hlookup, resolveName_names hmodule]

/-- A name of its own stands for the one export. -/
theorem resolveCallee_of_ident {localName : String} (hcallee : callee.form = .ident localName false)
    (target : Option String) : resolveCallee [.named localName module name target] callee =
      some (target.elim (.unknown module name) (.known module)) := by
  have hlookup := lookup_single (b := .named localName module name target) hcallee
  simp only [resolveCallee, memberParts?_of_ident hcallee, hlookup]
  cases target <;> rfl

theorem elim_find?_names (hmodule : registry.macros? module = some macros) (name : String) :
    ((macros.map (·.name)).find? (· == name)).elim (.unknown module name) (.known module) =
      registry.meaning module name := by
  rw [find?_names hmodule, Registry.meaning]
  cases registry.find? module name <;> rfl

/-- In every form, a call of an export stands for what the registry says of it. -/
theorem resolveCallee_of_callsExport {keepImports : Bool} {item : Node}
    (hmodule : registry.macros? module = some macros) (h : CallsExport module name item callee) :
    resolveCallee (collectBindings registry.exports keepImports [item]).1 callee =
      some (registry.meaning module name) := by
  cases h with
  | ofNamespace himport hobject hcallee =>
    rw [collectBindings_just hmodule himport]
    exact resolveCallee_of_isMember hmodule hobject hcallee
  | ofDefault himport hobject hcallee =>
    rw [collectBindings_just hmodule himport]
    exact resolveCallee_of_isMember hmodule hobject hcallee
  | ofName himport hname hcallee =>
    rw [collectBindings_just hmodule himport]
    subst hname
    exact (resolveCallee_of_ident hcallee _).trans (congrArg some (elim_find?_names hmodule _))

/-- A call by a bound name is an ordinary one. By a name that nothing binds, a callee stands for what the
last binding of that name makes of it, whatever was bound before. And whatever the form is in which an
export of a macro module is imported and called, the call stands for the macro of that name that the
registry has for the module, or for a macro that the module lacks. -/
theorem callees_resolve_by_last_binding (registry : Registry) (keepImports : Bool) (callee : Node) :
    (∀ name, callee.decidingPart.form = .ident name true →
      ∀ bindings, resolveCallee bindings callee = none) ∧
    (∀ name, callee.decidingPart.form = .ident name false → ∀ bs cs,
      resolveCallee (bs ++ cs) callee =
        if ∃ b ∈ cs, b.localName = name then resolveCallee cs callee else resolveCallee bs callee) ∧
    ∀ module name item, (registry.macros? module).isSome → CallsExport module name item callee →
      resolveCallee (collectBindings registry.exports keepImports [item]).1 callee =
        some (registry.meaning module name) := by
  refine ⟨fun _ => resolveCallee_of_bound, fun _ => resolveCallee_append, ?_⟩
  intro module name item hmacros h
  obtain ⟨macros, hmodule⟩ := Option.isSome_iff_exists.mp hmacros
  exact resolveCallee_of_callsExport hmodule h

/-- A registry with one module, which has one macro. -/
def echoing : Registry where
  modules := [("m", ⟨.macros [⟨"echo", .context fun _ => modify Context.remove, "", compatVersion⟩], []⟩)]

/-- An import of one thing from the module. -/
def importing (s : ImportSpecifier) : Node :=
  build (.importDecl { specifiers := [s], source := ⟨"m", none⟩ })

/-- The callee `n["echo"]`. -/
def indexed : Node := build .index [identifier "n", string "echo"]

def whole : ImportSpecifier := .namespace ⟨"n", .built⟩

/-- As `l`, an export that the module lacks. -/
def lost : ImportSpecifier := .named ⟨"l", .built⟩ (some (.name ⟨"lost", .built⟩)) false .built

/-- A member of a namespace by an index, and a name of its own that stands for no macro. A later binding
that does not fit hides one that does, and a declaration hides all of them. -/
theorem echoing_callees_resolve :
    (echoing.macros? "m").isSome ∧
    CallsExport "m" "echo" (importing whole) indexed ∧
    resolveCallee (collectBindings echoing.exports true [importing whole]).1 indexed =
      some (.known "m" "echo") ∧
    CallsExport "m" "lost" (importing lost) (identifier "l") ∧
    resolveCallee (collectBindings echoing.exports true [importing lost]).1 (identifier "l") =
      some (.unknown "m" "lost") ∧
    indexed.decidingPart.form = .ident "n" false ∧
    resolveCallee ([.namespace "n" "m" ["echo"]] ++ [.named "n" "m" "echo" (some "echo")]) indexed = none ∧
    (build (.ident "l" true)).decidingPart.form = .ident "l" true ∧
    resolveCallee [.named "l" "m" "echo" (some "echo")] (build (.ident "l" true)) = none := by
  have hmacros : (echoing.macros? "m").isSome := rfl
  have hmember : CallsExport "m" "echo" (importing whole) indexed :=
    .ofNamespace ⟨_, rfl, rfl, rfl, rfl, rfl⟩ rfl .quoted
  have hname : CallsExport "m" "lost" (importing lost) (identifier "l") :=
    .ofName ⟨_, rfl, rfl, rfl, rfl, rfl⟩ rfl rfl
  obtain ⟨-, happend, hforms⟩ := callees_resolve_by_last_binding echoing true indexed
  obtain ⟨-, -, hforms'⟩ := callees_resolve_by_last_binding echoing true (identifier "l")
  obtain ⟨hbound, -⟩ := callees_resolve_by_last_binding echoing true (build (.ident "l" true))
  refine ⟨hmacros, hmember, hforms "m" "echo" _ hmacros hmember, hname,
    hforms' "m" "lost" _ hmacros hname, rfl, ?_, rfl, hbound "l" rfl _⟩
  rw [happend "n" rfl, if_pos ⟨_, List.mem_singleton_self _, rfl⟩]
  rfl

end CallExpander
