import DataPipeline.Library.Dotted
import DataPipeline.Library.Rose

/-! The check of service boundaries (`scripts/ci/check_service_boundaries.py`), against
what an import statement names by the rules of Python.

A file is the tree that `ast.parse` makes of it, with its place in the repository.
-/

set_option autoImplicit false

namespace DataPipeline.Scripts.ServiceBoundaries

open Dotted

abbrev Path := List String

inductive Service where
  | ingestor
  | aiGateway
  | queryApi
  | processor
  | dashboard
  deriving DecidableEq, Repr

namespace Service

def name : Service → String
  | ingestor => "ingestor"
  | aiGateway => "ai_gateway"
  | queryApi => "query_api"
  | processor => "processor"
  | dashboard => "dashboard"

/-- The directories, from the root of the repository, that a service's own lies in. -/
def package : Service → List String
  | ingestor => ["ingestor"]
  | service => ["services", service.name]

end Service

/-- The keys of `SERVICE_ROOTS`, in order. -/
def services : List Service := [.ingestor, .aiGateway, .queryApi, .processor, .dashboard]

def serviceRoot (repoRoot : Path) (service : Service) : Path := repoRoot ++ service.package

inductive SharedLib where
  | platform
  | contracts
  deriving DecidableEq, Repr

namespace SharedLib

def name : SharedLib → String
  | platform => "platform"
  | contracts => "contracts"

def package (lib : SharedLib) : List String := ["libs", lib.name]

end SharedLib

def sharedLibs : List String := ["libs.platform", "libs.contracts"]

def libsRoot (repoRoot : Path) (lib : SharedLib) : Path := repoRoot ++ lib.package

def persistenceModuleHints : List String :=
  ["database", "models", "crud", "storage", "repository", "repositories"]

structure Violation where
  file : Path
  line : Nat
  code : String
  message : String
  deriving DecidableEq, Repr

/-! ## Syntax -/

structure Alias where
  name : String
  asname : Option String
  deriving DecidableEq, Repr

/-- The nodes of a syntax tree, of which only import statements matter. -/
inductive Node where
  | imports (lineno : Nat) (names : List Alias)
  | importFrom (lineno : Nat) (module : Option String) (names : List Alias) (level : Nat)
  | other
  deriving DecidableEq, Repr

/-! ## The check -/

def detectServiceOwner (repoRoot filePath : Path) : Option Service :=
  services.find? fun service => (serviceRoot repoRoot service).isPrefixOf filePath

def moduleToService (module : String) : Option Service :=
  if module = "libs" || sharedLibs.any fun lib => isUnder lib module then none
  else if isUnder "ingestor" module then some .ingestor
  else if isUnder "services" module then
    match parts module with
    | _ :: svc :: _ =>
      [Service.aiGateway, .queryApi, .processor, .dashboard].find? fun service => service.name = svc
    | _ => none
  else none

def referencesPersistenceModule (module : String) : Bool :=
  (parts module).any fun part => part ∈ persistenceModuleHints

def extractImportModules : Node → List (Nat × String)
  | .imports lineno names => names.map fun imported => (lineno, imported.name)
  | .importFrom lineno module _ level =>
    if 0 < level then []
    else match module with
      | some module => if module = "" then [] else [(lineno, module)]
      | none => []
  | .other => []

def crossings (file : Path) (owner : Service) (line : Nat) (module : String) : List Violation :=
  match moduleToService module with
  | none => []
  | some target =>
    (if target ≠ owner then
      [{ file, line, code := "SVC001",
         message := "Cross-service import is forbidden: '" ++ module ++ "' from service '" ++
           owner.name ++ "' to '" ++ target.name ++ "'." }]
    else []) ++
    (if target ≠ owner ∧ referencesPersistenceModule module = true then
      [{ file, line, code := "SVC002",
         message := "Direct access to another service's persistence boundary is forbidden: '" ++
           module ++ "'." }]
    else [])

def scanFile (repoRoot file : Path) (tree : Rose Node) : List Violation :=
  match detectServiceOwner repoRoot file with
  | none => []
  | some owner =>
    (Rose.walk [tree]).flatMap fun node =>
      (extractImportModules node).flatMap fun (line, module) => crossings file owner line module

def scanLibsFile (file : Path) (tree : Rose Node) : List Violation :=
  (Rose.walk [tree]).flatMap fun node =>
    (extractImportModules node).flatMap fun (line, module) =>
      match moduleToService module with
      | none => []
      | some target =>
        [{ file, line, code := "SVC003",
           message := "libs must not import from services: '" ++ module ++ "' (target: '" ++
             target.name ++ "')." }]

/-! ## What a statement names -/

/-- The absolute name that a `from` clause stands for in a package: each dot but the
first goes one package up, and no further than the outermost one. -/
def resolve (package : List String) (module : Option String) (level : Nat) : Option (List String) :=
  if level = 0 then module.map parts
  else if level ≤ package.length then
    some (package.take (package.length - (level - 1)) ++ (module.map parts).getD [])
  else none

/-- The modules that a statement names: those it imports, and those that the names
after `from … import` stand for where they are modules. -/
def named (package : List String) : Node → List (List String)
  | .imports _ names => names.map fun imported => parts imported.name
  | .importFrom _ module names level =>
    match resolve package module level with
    | none => []
    | some base =>
      base :: (names.filter fun imported => imported.name ≠ "*").map fun imported => base ++ [imported.name]
  | .other => []

def Foreign (home : Option Service) (module : List String) : Prop :=
  ∃ target, some target ≠ home ∧ target.package <+: module

def NamesForeign (home : Option Service) (package : List String) (node : Node) : Prop :=
  ∃ module ∈ named package node, Foreign home module

/-- An `import` or an absolute `from` whose dotted name is itself that of a foreign module. -/
def Visible (home : Option Service) (node : Node) : Prop :=
  ∃ entry ∈ extractImportModules node, Foreign home (parts entry.2)

/-- A `from services import` of a foreign service, or a relative import with as many dots
as the file has packages around it, the outermost being `services`, of one. -/
def Overlooked (home : Option Service) (package : List String) : Node → Prop
  | .importFrom _ module names level =>
    (level = 0 ∧ module = some "services" ∧ ∃ imported ∈ names, Foreign home ["services", imported.name]) ∨
    (level = package.length ∧ package.head? = some "services" ∧
      match module with
      | some module => Foreign home ("services" :: parts module)
      | none => ∃ imported ∈ names, Foreign home ["services", imported.name])
  | _ => False

/-! ## Owners of modules -/

/-- Services lie apart: no module is below two of them. -/
theorem package_unique {first second : Service} {module : List String}
    (left : first.package <+: module) (right : second.package <+: module) : first = second := by
  have comparable := List.prefix_or_prefix_of_prefix left right
  revert comparable
  cases first <;> cases second <;> decide

theorem head_of_package {package : List String} {module : List String} (begins : package <+: module)
    (nonempty : package ≠ []) : module.head? = package.head? := by
  obtain ⟨rest, rfl⟩ := begins
  exact List.head?_append_of_ne_nil _ nonempty

theorem package_ne_nil (service : Service) : service.package ≠ [] := by
  cases service <;> decide

theorem package_cases (service : Service) :
    service = .ingestor ∨ service.package = ["services", service.name] := by
  cases service <;> simp [Service.package]

theorem libs_apart (service : Service) : some "libs" ≠ service.package.head? := by
  cases service <;> decide

theorem find_service {svc : String} {service : Service} :
    [Service.aiGateway, .queryApi, .processor, .dashboard].find? (fun service => service.name = svc) =
      some service ↔ service.package = ["services", svc] := by
  constructor
  · intro found
    have named : service.name = svc := by simpa using List.find?_some found
    have member := List.mem_of_find?_eq_some found
    rw [← named]
    revert member
    cases service <;> decide
  · intro shape
    cases service with
    | ingestor => exact absurd shape (by simp [Service.package])
    | _ =>
      simp only [Service.package, List.cons.injEq, and_true, true_and] at shape
      rw [← shape]
      decide

theorem shared_head {module : String}
    (shared : (module = "libs" || sharedLibs.any fun lib => isUnder lib module) = true) :
    (parts module).head? = some "libs" := by
  simp only [sharedLibs, List.any_cons, List.any_nil, Bool.or_false, Bool.or_eq_true, decide_eq_true_eq,
    isUnder_iff] at shared
  obtain rfl | platform | contracts := shared
  · rfl
  · rw [head_of_package platform (parts_ne_nil _)]
    rfl
  · rw [head_of_package contracts (parts_ne_nil _)]
    rfl

theorem moduleToService_iff {module : String} {service : Service} :
    moduleToService module = some service ↔ service.package <+: parts module := by
  have ingestor : parts "ingestor" = Service.ingestor.package := rfl
  have outer : parts "services" = ["services"] := rfl
  unfold moduleToService
  split
  next shared =>
    simp only [reduceCtorEq, false_iff]
    intro begins
    have head := head_of_package begins (package_ne_nil service)
    exact libs_apart service ((shared_head shared).symm.trans head)
  next =>
    split
    next own =>
      rw [isUnder_iff, ingestor] at own
      constructor
      · intro same
        rwa [← Option.some.inj same]
      · intro begins
        rw [package_unique own begins]
    next foreign =>
      rw [isUnder_iff, ingestor] at foreign
      split
      next inside =>
        rw [isUnder_iff, outer] at inside
        obtain ⟨rest, shape⟩ := inside
        rw [← shape]
        rw [← shape] at foreign
        cases rest with
        | nil =>
          simp only [List.append_nil, reduceCtorEq, false_iff]
          cases service <;> decide
        | cons svc rest =>
          simp only [List.cons_append, List.nil_append, find_service]
          cases service with
          | ingestor =>
            exact ⟨fun shape => absurd shape (by simp [Service.package]), fun begins => absurd begins foreign⟩
          | _ => simp [Service.package, List.cons_prefix_cons]
      next outside =>
        rw [isUnder_iff, outer] at outside
        simp only [reduceCtorEq, false_iff]
        intro begins
        cases service with
        | ingestor => exact foreign begins
        | _ => exact outside ((List.prefix_append ["services"] _).trans begins)

theorem foreign_iff {home : Option Service} {module : String} :
    Foreign home (parts module) ↔ ∃ target, moduleToService module = some target ∧ some target ≠ home := by
  simp only [Foreign, moduleToService_iff, and_comm]

/-! ## What the check reports -/

theorem mem_tree {tree : Rose Node} {node : Node} : node ∈ Rose.walk [tree] ↔ Rose.Occurs node tree := by
  simp [Rose.mem_walk]

theorem crossings_ne_nil {file : Path} {owner : Service} {line : Nat} {module : String} :
    crossings file owner line module ≠ [] ↔ Foreign (some owner) (parts module) := by
  rw [foreign_iff, crossings]
  cases moduleToService module with
  | none => simp
  | some target => by_cases own : target = owner <;> simp [own]

theorem detectServiceOwner_eq (repoRoot : Path) (service : Service) (inside : List String) :
    detectServiceOwner repoRoot (serviceRoot repoRoot service ++ inside) = some service := by
  have below : ∀ other, (serviceRoot repoRoot other).isPrefixOf (serviceRoot repoRoot service ++ inside) =
      true ↔ other = service := by
    intro other
    rw [List.isPrefixOf_iff_prefix, serviceRoot, serviceRoot, List.append_assoc,
      List.prefix_append_right_inj]
    constructor
    · intro begins
      exact package_unique begins (List.prefix_append _ _)
    · intro same
      rw [same]
      exact List.prefix_append _ _
  have search : (fun other => (serviceRoot repoRoot other).isPrefixOf (serviceRoot repoRoot service ++ inside)) =
      fun other => decide (other = service) := by
    funext other
    rw [Bool.eq_iff_iff, below, decide_eq_true_eq]
  rw [detectServiceOwner, search]
  cases service <;> rfl

theorem scan_ne_nil_iff {home : Option Service} {report : Nat × String → List Violation}
    (reports : ∀ entry, report entry ≠ [] ↔ Foreign home (parts entry.2)) (tree : Rose Node) :
    ((Rose.walk [tree]).flatMap fun node => (extractImportModules node).flatMap report) ≠ [] ↔
      ∃ node, Rose.Occurs node tree ∧ Visible home node := by
  simp only [ne_eq, List.flatMap_eq_nil_iff, not_forall, mem_tree, exists_prop]
  apply exists_congr
  intro node
  apply and_congr_right
  intro _
  apply exists_congr
  intro entry
  rw [← reports]

theorem scanFile_ne_nil_iff (repoRoot : Path) (service : Service) (inside : List String) (tree : Rose Node) :
    scanFile repoRoot (serviceRoot repoRoot service ++ inside) tree ≠ [] ↔
      ∃ node, Rose.Occurs node tree ∧ Visible (some service) node := by
  rw [scanFile, detectServiceOwner_eq]
  exact scan_ne_nil_iff (fun _ => crossings_ne_nil) tree

theorem scanLibsFile_ne_nil_iff (file : Path) (tree : Rose Node) :
    scanLibsFile file tree ≠ [] ↔ ∃ node, Rose.Occurs node tree ∧ Visible none node := by
  rw [scanLibsFile]
  apply scan_ne_nil_iff
  rintro ⟨line, module⟩
  rw [foreign_iff]
  cases owned : moduleToService module with
  | none => simp [owned]
  | some target => simp [owned]

/-! ## What it overlooks -/

inductive Home : Option Service → List String → Prop where
  | service (service : Service) (dirs : List String) : Home (some service) (service.package ++ dirs)
  | lib (lib : SharedLib) (dirs : List String) : Home none (lib.package ++ dirs)

variable {home : Option Service} {package : List String}

theorem foreign_append {module rest : List String} (foreign : Foreign home module) :
    Foreign home (module ++ rest) := by
  obtain ⟨target, other, begins⟩ := foreign
  exact ⟨target, other, begins.trans (List.prefix_append _ _)⟩

theorem foreign_concat {module : List String} {part : String} (nonempty : module ≠ []) :
    Foreign home (module ++ [part]) ↔
      Foreign home module ∨ module = ["services"] ∧ Foreign home ["services", part] := by
  constructor
  · intro foreign
    obtain ⟨target, other, begins⟩ := foreign
    rw [List.prefix_concat_iff] at begins
    cases begins with
    | inr before => exact .inl ⟨target, other, before⟩
    | inl whole =>
      have outer : module = ["services"] := by
        obtain rfl | shape := package_cases target
        · have single : [] ++ [Service.ingestor.name] = module ++ [part] := whole
          exact absurd (List.append_inj_left' single rfl).symm nonempty
        · have double : ["services"] ++ [target.name] = module ++ [part] := shape.symm.trans whole
          exact (List.append_inj_left' double rfl).symm
      refine .inr ⟨outer, target, other, ?_⟩
      rw [whole, outer]
      exact List.prefix_refl _
  · intro either
    cases either with
    | inl foreign => exact foreign_append foreign
    | inr found =>
      rw [found.1]
      exact found.2

/-- However far up a relative import goes, what it reaches is foreign only from `services` itself. -/
theorem climbed (inside : Home home package) {height : Nat} {rest : List String}
    (foreign : Foreign home (package.take (height + 1) ++ rest)) :
    height = 0 ∧ package.head? = some "services" := by
  obtain ⟨target, other, begins⟩ := foreign
  cases inside with
  | lib lib dirs =>
    have head := head_of_package begins (package_ne_nil target)
    exact absurd head (libs_apart target)
  | service service dirs =>
    have own : ¬ service.package <+: (service.package ++ dirs).take (height + 1) ++ rest := by
      intro own
      exact other (by rw [package_unique own begins])
    cases service with
    | ingestor => exact absurd (by simp [Service.package]) own
    | _ =>
      cases height with
      | zero => exact ⟨rfl, rfl⟩
      | succ height => exact absurd (by simp [Service.package]) own

theorem not_foreign_outer : ¬ Foreign home ["services"] := by
  intro foreign
  obtain ⟨target, -, begins⟩ := foreign
  revert begins
  cases target <;> decide

theorem not_foreign_star : ¬ Foreign home ["services", "*"] := by
  intro foreign
  obtain ⟨target, -, begins⟩ := foreign
  revert begins
  cases target <;> decide

theorem foreign_from {base : List String} (nonempty : base ≠ []) (names : List Alias) :
    (∃ module ∈ base :: (names.filter fun imported => imported.name ≠ "*").map fun imported =>
        base ++ [imported.name], Foreign home module) ↔
      Foreign home base ∨
        base = ["services"] ∧ ∃ imported ∈ names, Foreign home ["services", imported.name] := by
  constructor
  · intro found
    obtain ⟨module, member, foreign⟩ := found
    cases List.mem_cons.mp member with
    | inl same => rw [← same]; exact .inl foreign
    | inr listed =>
      obtain ⟨imported, kept, rfl⟩ := List.mem_map.mp listed
      rw [foreign_concat nonempty] at foreign
      exact foreign.imp_right fun below => ⟨below.1, imported, (List.mem_filter.mp kept).1, below.2⟩
  · intro either
    cases either with
    | inl foreign => exact ⟨base, List.mem_cons_self, foreign⟩
    | inr found =>
      obtain ⟨outer, imported, member, foreign⟩ := found
      have named : imported.name ≠ "*" := by
        intro star
        rw [star] at foreign
        exact not_foreign_star foreign
      refine ⟨base ++ [imported.name], List.mem_cons_of_mem _ (List.mem_map.mpr ⟨imported, ?_, rfl⟩), ?_⟩
      · exact List.mem_filter.mpr ⟨member, by simpa using named⟩
      · exact (foreign_concat nonempty).mpr (.inr ⟨outer, foreign⟩)

theorem Home.ne_nil (inside : Home home package) : package ≠ [] := by
  cases inside with
  | service service dirs => exact List.append_ne_nil_of_left_ne_nil (package_ne_nil service) _
  | lib lib dirs => exact List.cons_ne_nil _ _

theorem namesForeign_absolute (inside : Home home package) (lineno : Nat) (module : Option String)
    (names : List Alias) :
    NamesForeign home package (.importFrom lineno module names 0) ↔
      Visible home (.importFrom lineno module names 0) ∨
        Overlooked home package (.importFrom lineno module names 0) := by
  have nested : ¬ 0 = package.length := fun empty => inside.ne_nil (List.length_eq_zero_iff.mp empty.symm)
  cases module with
  | none => simp [NamesForeign, Visible, Overlooked, named, resolve, extractImportModules, nested]
  | some module =>
    have outer : parts module = ["services"] ↔ module = "services" :=
      ⟨fun same => parts_injective same, fun same => by rw [same]; rfl⟩
    have visible : Visible home (.importFrom lineno (some module) names 0) ↔ Foreign home (parts module) := by
      by_cases empty : module = ""
      · have nowhere : ¬ Foreign home (parts "") := by
          intro foreign
          obtain ⟨target, -, begins⟩ := foreign
          revert begins
          cases target <;> decide
        simp [Visible, extractImportModules, empty, nowhere]
      · simp [Visible, extractImportModules, empty]
    rw [visible, NamesForeign]
    simp only [named, resolve, if_true, Option.map_some, foreign_from (parts_ne_nil module), outer,
      Overlooked, true_and, Option.some.injEq, nested, false_and, or_false]

theorem outermost {height level : Nat} {rest : List String} (length : package.length = level + 1 + height)
    (whole : package.take (height + 1) ++ rest = ["services"]) :
    height = 0 ∧ package.head? = some "services" := by
  cases package with
  | nil =>
    rw [List.length_nil] at length
    omega
  | cons outer dirs =>
    rw [List.take_succ_cons, List.cons_append, List.cons.injEq, List.append_eq_nil_iff,
      List.take_eq_nil_iff] at whole
    obtain ⟨rfl, short, -⟩ := whole
    constructor
    · cases short with
      | inl zero => exact zero
      | inr empty => rw [empty, List.length_singleton] at length; omega
    · rfl

theorem namesForeign_relative (inside : Home home package) (lineno : Nat) (module : Option String)
    (names : List Alias) (level : Nat) :
    NamesForeign home package (.importFrom lineno module names (level + 1)) ↔
      Overlooked home package (.importFrom lineno module names (level + 1)) := by
  by_cases reaches : level + 1 ≤ package.length
  · obtain ⟨height, length⟩ := Nat.exists_eq_add_of_le reaches
    have up : package.length - (level + 1 - 1) = height + 1 := by omega
    have nonempty : package.take (height + 1) ++ (module.map parts).getD [] ≠ [] := by
      apply List.append_ne_nil_of_left_ne_nil
      simpa using inside.ne_nil
    rw [NamesForeign]
    simp only [named, resolve, Nat.succ_ne_zero, if_false, if_pos reaches, up, foreign_from nonempty]
    by_cases top : height = 0 ∧ package.head? = some "services"
    · obtain ⟨rfl, outer⟩ := top
      obtain ⟨dirs, rfl⟩ := List.head?_eq_some_iff.mp outer
      cases module with
      | none => simp [Overlooked, length, not_foreign_outer]
      | some module => simp [Overlooked, length, parts_ne_nil]
    · have apart : ¬ Overlooked home package (.importFrom lineno module names (level + 1)) := by
        intro overlooked
        cases overlooked with
        | inl absolute => exact absurd absolute.1 (Nat.succ_ne_zero level)
        | inr climbing => exact top ⟨by omega, climbing.2.1⟩
      refine iff_of_false ?_ apart
      intro either
      cases either with
      | inl foreign => exact top (climbed inside foreign)
      | inr found => exact top (outermost length found.1)
  · have past : ¬ level + 1 = package.length := by omega
    simp [NamesForeign, Overlooked, named, resolve, reaches, past]

/-- By the rules of Python a statement names a foreign module in one of two ways, of
which the check knows the first. -/
theorem namesForeign_iff (inside : Home home package) (node : Node) :
    NamesForeign home package node ↔ Visible home node ∨ Overlooked home package node := by
  cases node with
  | imports lineno names => simp [NamesForeign, Visible, Overlooked, named, extractImportModules]
  | other => simp [NamesForeign, Visible, Overlooked, named, extractImportModules]
  | importFrom lineno module names level =>
    cases level with
    | zero => exact namesForeign_absolute inside lineno module names
    | succ level =>
      have hidden : ¬ Visible home (.importFrom lineno module names (level + 1)) := by
        simp [Visible, extractImportModules]
      rw [namesForeign_relative inside, or_iff_right hidden]

/-! ## The check and the rules of Python -/

theorem exact_where {Fact Seen Hidden : Prop} (named : Fact ↔ Seen ∨ Hidden) :
    (Seen ↔ Fact) ↔ (Hidden → Seen) := by
  rw [named]
  constructor
  · intro same hidden
    exact same.mpr (.inr hidden)
  · intro covered
    exact ⟨.inl, fun either => either.elim id covered⟩

theorem tree_namesForeign (inside : Home home package) (tree : Rose Node) :
    (∃ node, Rose.Occurs node tree ∧ NamesForeign home package node) ↔
      (∃ node, Rose.Occurs node tree ∧ Visible home node) ∨
        ∃ node, Rose.Occurs node tree ∧ Overlooked home package node := by
  simp only [namesForeign_iff inside, and_or_left, exists_or]

/-- The check reports a file exactly when it names a foreign module, unless all the
imports that do are of the kinds it overlooks. -/
theorem check_exact (repoRoot : Path) (tree : Rose Node) (dirs : List String) (file : String) :
    (∀ service, (scanFile repoRoot (serviceRoot repoRoot service ++ (dirs ++ [file])) tree ≠ [] ↔
        ∃ node, Rose.Occurs node tree ∧ NamesForeign (some service) (service.package ++ dirs) node) ↔
      ((∃ node, Rose.Occurs node tree ∧ Overlooked (some service) (service.package ++ dirs) node) →
        ∃ node, Rose.Occurs node tree ∧ Visible (some service) node)) ∧
    (∀ lib, (scanLibsFile (libsRoot repoRoot lib ++ (dirs ++ [file])) tree ≠ [] ↔
        ∃ node, Rose.Occurs node tree ∧ NamesForeign none (lib.package ++ dirs) node) ↔
      ((∃ node, Rose.Occurs node tree ∧ Overlooked none (lib.package ++ dirs) node) →
        ∃ node, Rose.Occurs node tree ∧ Visible none node)) := by
  constructor
  · intro service
    rw [scanFile_ne_nil_iff]
    exact exact_where (tree_namesForeign (.service service dirs) tree)
  · intro lib
    rw [scanLibsFile_ne_nil_iff]
    exact exact_where (tree_namesForeign (.lib lib dirs) tree)

/-- `from services import query_api` in `services/ai_gateway/main.py`. -/
theorem sibling_import_overlooked :
    let tree : Rose Node := .node .other [.node (.importFrom 1 (some "services") [⟨"query_api", none⟩] 0) []]
    ¬ (scanFile [] (serviceRoot [] .aiGateway ++ ["main.py"]) tree ≠ [] ↔
      ∃ node, Rose.Occurs node tree ∧ NamesForeign (some .aiGateway) Service.aiGateway.package node) := by
  intro tree exact
  have occurs : Rose.Occurs (.importFrom 1 (some "services") [⟨"query_api", none⟩] 0) tree :=
    .deeper List.mem_cons_self .root
  have reported := exact.mpr ⟨_, occurs, ["services", "query_api"], by decide, .queryApi, by decide, by decide⟩
  obtain ⟨node, place, entry, member, foreign⟩ := (scanFile_ne_nil_iff [] .aiGateway ["main.py"] tree).mp reported
  rw [Rose.occurs_node] at place
  cases place with
  | inl root => simp [root, extractImportModules] at member
  | inr below =>
    simp only [List.mem_singleton, exists_eq_left, Rose.occurs_node, List.not_mem_nil, false_and,
      exists_false, or_false] at below
    simp only [below, extractImportModules, Nat.lt_irrefl, if_false,
      String.reduceEq, List.mem_singleton] at member
    rw [member] at foreign
    exact not_foreign_outer foreign

end DataPipeline.Scripts.ServiceBoundaries
