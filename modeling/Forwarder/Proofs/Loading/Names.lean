/-
**Names and the paths of their sources.** The path of a source is made of the parts of a name, so it is relative
as long as the name does not begin with a point or a slash. The names in declarations begin with identifiers,
and so do the names that they are qualified with. The names of supertypes are made of identifiers, those of
packages and imports; only the supertype of a wildcard has an empty name, and no type is declared under that. So
the parts of a declared supertype are names of directories and of a file, and no other name has the same.

* `IsRelativeName` — the source of the type is looked for below the roots.
* `Scope.Relative` — what surrounds the names in a declaration has names of this kind.
* **`Library.closed_of_parsed`** — loading such a name asks for no others.
* `Decoration.relative_of_read` — the decorated type has such a name.
* `IsPathName` — the parts of the name can be those of a path.
* **`Library.isPathName_of_extends`** — declared supertypes have such names.
* `SourceLoader.isEntryName_relativePath` — the paths of such names lead through directories to a file.
* `SourceLoader.relativePath_inj` — different names have different paths.
-/

import Forwarder.Proofs.Decoration.Texts
import Forwarder.Proofs.Loading.Agreement
import Forwarder.Proofs.Loading.Reach
import Forwarder.Proofs.Loading.Search

namespace Forwarder

open Source

/-- The name does not begin with a point or a slash. -/
def IsRelativeName (name : String) : Prop :=
  ∀ c ∈ name.toList.head?, c ≠ '.' ∧ c ≠ '/'

namespace IsRelativeName

variable {name : String}

/-- A name begins as its first part does. -/
theorem append (relative : IsRelativeName name) (some_ : name ≠ "") (rest : String) :
    IsRelativeName (name ++ rest) := by
  obtain ⟨c, cs, chars⟩ := List.exists_cons_of_ne_nil (String.toList_eq_nil_iff.not.mpr some_)
  rw [IsRelativeName, chars] at relative
  rw [IsRelativeName, String.toList_append, chars]
  exact relative

theorem of_isIdentifier (named : isIdentifier name = true) : IsRelativeName name := by
  intro c first
  have part := isIdentPart_of_isIdentifier named c (List.mem_of_mem_head? first)
  constructor <;> rintro rfl <;> exact absurd part (by decide)

/-- Parts that are joined begin with the first one. -/
theorem join (named : isIdentifier name = true) (others : List String) :
    IsRelativeName (Text.join "." (name :: others)) ∧ Text.join "." (name :: others) ≠ "" := by
  have some_ : name ≠ "" := by
    rintro rfl
    exact ne_nil_of_isIdentifier named rfl
  obtain ⟨rest, isRest⟩ : ∃ rest, Text.join "." (name :: others) = name ++ rest := by
    cases others with
    | nil => exact ⟨"", by simp [Text.join]⟩
    | cons next others =>
      exact ⟨"." ++ Text.join "." (next :: others), by simp [Text.join, String.append_assoc]⟩
  rw [isRest]
  exact ⟨(of_isIdentifier named).append some_ rest, fun empty =>
    some_ (String.append_eq_empty_iff.mp empty).1⟩

end IsRelativeName

/-- The imported name begins with an identifier. -/
theorem relative_target {i : ImportDecl} (named : isIdentifier i.head = true) :
    IsRelativeName i.target ∧ i.target ≠ "" := by
  rw [ImportDecl.target]
  split
  · next onDemand =>
    -- The star is a segment of its own behind the first one.
    have some_ : i.tail ≠ [] := by
      rintro none_
      simp [ImportDecl.onDemand, none_] at onDemand
    rw [ImportDecl.segments, List.dropLast_cons_of_ne_nil (by simpa using some_)]
    exact IsRelativeName.join named _
  · exact IsRelativeName.join named _

/-! ### Scopes -/

/-- The package and all imports have names that begin with identifiers. -/
structure Scope.Relative (s : Scope) : Prop where
  package : IsRelativeName s.packageName
  imports : ∀ entry ∈ s.imports, IsRelativeName entry.2
  onDemand : ∀ package ∈ s.onDemand, IsRelativeName package ∧ package ≠ ""

namespace Scope

variable {s : Scope} {lib : Library} {vars : List String} {simple : String}

theorem relative_of_parse {text : String} {u : CompilationUnit} (parsed : parse text = .ok u)
    (decl : TypeDecl) : (Scope.of u decl).Relative := by
  obtain ⟨isPackage, areImports⟩ := headed_unit_of_parse parsed
  refine ⟨?_, fun entry member => ?_, fun package member => ?_⟩
  · rw [Scope.of, CompilationUnit.packageName]
    cases declared : u.packageDecl with
    | none => exact fun c first => by cases first
    | some name => exact (IsRelativeName.join (isPackage name declared _ List.mem_cons_self) name.tail).1
  · obtain ⟨i, isImport, rfl⟩ := List.mem_map.mp member
    exact (IsRelativeName.join (areImports i (List.mem_filter.mp isImport).1) _).1
  · obtain ⟨i, isImport, rfl⟩ := List.mem_map.mp member
    exact relative_target (areImports i (List.mem_filter.mp isImport).1)

/-- The candidates for a simple name. -/
theorem Relative.candidates (relative : s.Relative) {candidates : List String}
    (isReading : s.reading vars simple = .firstOf candidates) :
    ∀ name ∈ candidates, IsRelativeName name := by
  rw [reading] at isReading
  split at isReading
  · cases isReading
  split at isReading
  · cases isReading
  split at isReading
  · cases isReading
  cases isReading
  intro name member
  obtain ⟨package, isPackage, rfl⟩ := List.mem_map.mp member
  rw [String.append_assoc]
  rcases List.mem_append.mp isPackage with own | onDemand
  · split at own
    · cases own
    · next some_ =>
      rw [List.mem_singleton] at own
      subst own
      exact relative.package.append (by simpa using some_) _
  · obtain ⟨isRelative, some_⟩ := relative.onDemand package onDemand
    exact isRelative.append some_ _

/-- The qualified name of a simple one. -/
theorem Relative.qualify (relative : s.Relative) (isSimple : IsRelativeName simple) :
    IsRelativeName (s.qualify lib vars simple) := by
  rcases s.qualify_cases lib vars simple with same | ⟨package, isPackage, within⟩ | imported
  · rwa [same]
  · rw [within, String.append_assoc]
    rcases isPackage with ⟨rfl, some_⟩ | onDemand
    · exact relative.package.append some_ _
    · obtain ⟨isRelative, some_⟩ := relative.onDemand package onDemand
      exact isRelative.append some_ _
  · have entry := relative.imports _ (mem_of_lookup_eq_some imported)
    exact entry

end Scope

/-- The name of a supertype. -/
theorem relative_qualifiedName {type : TypeRef} (worded : type.Worded) :
    IsRelativeName type.qualifiedName := by
  rw [TypeRef.qualifiedName]
  cases isSegments : type.segments with
  | nil => exact fun c first => by cases first
  | cons first others =>
    have named := worded type type.self_mem_parts first (isSegments ▸ List.mem_cons_self)
    exact (IsRelativeName.join named _).1

namespace Library

variable {lib : Library}

/-- **Loading asks for relative names only**, where declarations are read from texts. -/
theorem closed_of_parsed
    (parsed : ∀ X u decl, lib.declaration X = .ok (u, decl) → ∃ text, parse text = .ok u) :
    Closed IsRelativeName lib where
  candidates X u decl _ declared vars simple candidates isReading := by
    obtain ⟨text, read⟩ := parsed X u decl declared
    exact (Scope.relative_of_parse read decl).candidates isReading
  supertypes X S _ edge := by
    obtain ⟨u, decl, declared, ref, isSuper, rfl, -⟩ := edge
    obtain ⟨text, read⟩ := parsed X u decl declared
    obtain ⟨place, -, -, found⟩ := SourceLoader.declaration_eq_ok.mp declared
    have written := relative_qualifiedName
      (worded_of_parse read (List.mem_of_find?_eq_some found) isSuper)
    rw [Scope.qualifySupertype]
    split
    · exact written
    dsimp only
    split
    · have prefix_ : IsRelativeName "java.lang." := by
        intro c first
        cases first
        decide
      exact prefix_.append (by decide) _
    · exact (Scope.relative_of_parse read decl).qualify written

/-- Loading one of the names asks for no others, whenever declarations are read from texts. -/
def ClosesAlways (inside : String → Prop) : Prop :=
  ∀ lib : Library, (∀ X u decl, lib.declaration X = .ok (u, decl) → ∃ text, parse text = .ok u) →
    Closed inside lib

theorem closesAlways_relative : ClosesAlways IsRelativeName :=
  fun _ => closed_of_parsed

theorem closesAlways_all : ClosesAlways fun _ => True :=
  fun _ _ => ⟨fun _ _ _ _ _ _ _ _ _ _ _ => trivial, fun _ _ _ _ => trivial⟩

end Library

/-- **The decorated type** has a relative name. -/
theorem Decoration.relative_of_read {file text : String} {d : Decoration}
    (accepted : read file text = .present d) : IsRelativeName d.decorated := by
  obtain ⟨u, parsed, extracted⟩ := read_eq_present accepted
  obtain ⟨decl, packageName, capability, target, decorated, -, -, -, -, found, rfl⟩ :=
    extract_eq_present extracted
  have member := mem_firstOccurrences.mp (List.mem_of_find?_eq_some found)
  obtain ⟨i, isImport, rfl⟩ := List.mem_map.mp member
  exact (relative_target ((headed_unit_of_parse parsed).2 i isImport)).1

/-! ### Names that are made of parts -/

/-- There is something between the points of the name, and no slash. -/
def IsPathName (name : String) : Prop :=
  ∀ part ∈ Text.split '.' name, part ≠ "" ∧ '/' ∉ part.toList

namespace IsPathName

variable {name package : String}

/-- Parts that are joined are the parts of the whole. -/
theorem join {parts : List String} (each : ∀ part ∈ parts, isIdentifier part = true ∨ part = "*")
    (some_ : parts ≠ []) : IsPathName (Text.join "." parts) := by
  have free : ∀ part ∈ parts, part ≠ "" ∧ '/' ∉ part.toList ∧ '.' ∉ part.toList := fun part member => by
    rcases each part member with named | rfl
    · refine ⟨fun empty => ne_nil_of_isIdentifier named (by rw [empty]; rfl), fun slash => ?_, fun point => ?_⟩
      · exact absurd (isIdentPart_of_isIdentifier named _ slash) (by decide)
      · exact absurd (isIdentPart_of_isIdentifier named _ point) (by decide)
    · decide
  have split : Text.split '.' (Text.join "." parts) = parts :=
    Text.split_join (fun part member => (free part member).2.2) some_
  rw [IsPathName, split]
  exact fun part member => ⟨(free part member).1, (free part member).2.1⟩

theorem append (first : IsPathName package) (second : IsPathName name) : IsPathName (package ++ "." ++ name) := by
  have split : Text.split '.' (package ++ "." ++ name) = Text.split '.' package ++ Text.split '.' name :=
    Text.split_append '.' package name
  rw [IsPathName, split]
  exact List.forall_mem_append.mpr ⟨first, second⟩

end IsPathName

/-! ### Imports -/

namespace Source

open Grammar

/-- The segments of imports are identifiers and stars. -/
def Symbol.Segmented : (s : Symbol) → s.Value → Prop
  | .compilationUnit, u => ∀ i ∈ u.imports, ∀ part ∈ i.segments, isIdentifier part = true ∨ part = "*"
  | .importDecl, i => ∀ part ∈ i.segments, isIdentifier part = true ∨ part = "*"
  | _, _ => True

theorem segmented_production (s : Symbol) (value : s.Value)
    (yields : (productions s).Yields Symbol.Segmented Identified value) : s.Segmented value := by
  cases s with
  | compilationUnit =>
    simp only [productions, DeclRule.compilationUnit, DeclRule.sym, Rule.Yields] at yields
    obtain ⟨_, rfl, -, ⟨-, areImports⟩, -⟩ := yields
    exact areImports
  | importDecl =>
    simp only [productions, DeclRule.importDecl, DeclRule.ident, Rule.Yields] at yields
    obtain ⟨_, rfl, -, -, isHead, ⟨-, isTail⟩, -⟩ := yields
    refine List.forall_mem_cons.mpr ⟨.inl (isHead rfl), List.forall_mem_map.mpr fun part member => ?_⟩
    have isPart := (isTail part member).after
    simp only [DeclRule.importSegment, Rule.Yields] at isPart
    obtain ⟨inner, rfl, isInner⟩ := isPart
    cases inner with
    | inl name => exact .inl (isInner rfl)
    | inr star => exact .inr rfl
  | _ => trivial

/-- The imports of a file consist of identifiers and stars. -/
theorem segmented_of_parse {text : String} {u : CompilationUnit} (parsed : parse text = .ok u) :
    Symbol.Segmented .compilationUnit u := by
  obtain ⟨tokens, finish, lexed, spelled⟩ := spells_of_parse parsed
  exact Language.Spells.holds segmented_production spelled (identified_of_lex lexed)

end Source

/-! ### Scopes -/

namespace Scope

variable {s : Scope}

/-- The package and all imports have names that are made of parts. -/
structure Parted (s : Scope) : Prop where
  package : s.packageName ≠ "" → IsPathName s.packageName
  imports : ∀ entry ∈ s.imports, IsPathName entry.2
  onDemand : ∀ package ∈ s.onDemand, IsPathName package

theorem parted_of_parse {text : String} {u : CompilationUnit} (parsed : parse text = .ok u) (decl : TypeDecl) :
    (Scope.of u decl).Parted := by
  have areImports := segmented_of_parse parsed
  obtain ⟨isPackage, -⟩ := headed_unit_of_parse parsed
  refine ⟨fun some_ => ?_, fun entry member => ?_, fun package member => ?_⟩
  · rw [Scope.of, CompilationUnit.packageName] at some_ ⊢
    cases declared : u.packageDecl with
    | none =>
      rw [declared] at some_
      exact absurd rfl some_
    | some name =>
      have isName : IsPathName name.render :=
        .join (fun part isPart => .inl (isPackage name declared part isPart)) (List.cons_ne_nil _ _)
      exact isName
  · obtain ⟨i, isImport, rfl⟩ := List.mem_map.mp member
    exact .join (areImports i (List.mem_filter.mp isImport).1) (List.cons_ne_nil _ _)
  · obtain ⟨i, isImport, rfl⟩ := List.mem_map.mp member
    obtain ⟨isImport, isOnDemand⟩ := List.mem_filter.mp isImport
    have onDemand : i.onDemand = true := (Bool.and_eq_true _ _ ▸ isOnDemand).1
    have some_ : i.tail ≠ [] := by
      rintro none_
      simp [ImportDecl.onDemand, none_] at onDemand
    rw [ImportDecl.target, if_pos onDemand]
    refine .join (fun part isPart => areImports i isImport part ((List.dropLast_sublist _).subset isPart)) ?_
    rw [ImportDecl.segments, List.dropLast_cons_of_ne_nil (by simpa using some_)]
    exact List.cons_ne_nil _ _

/-- The qualified name of a simple one is made of parts, if this is. -/
theorem Parted.qualify (parted : s.Parted) {lib : Library} {vars : List String} {simple : String}
    (isSimple : IsPathName simple) : IsPathName (s.qualify lib vars simple) := by
  rcases s.qualify_cases lib vars simple with same | ⟨package, isPackage, within⟩ | imported
  · rwa [same]
  · rw [within]
    refine .append ?_ isSimple
    rcases isPackage with ⟨rfl, some_⟩ | onDemand
    · exact parted.package some_
    · exact parted.onDemand package onDemand
  · have entry := parted.imports _ (mem_of_lookup_eq_some imported)
    exact entry

/-- A name that is empty stands for nothing that can be declared, unless it is imported. -/
theorem Parted.qualify_empty (parted : s.Parted) (lib : Library) (vars : List String) :
    IsPathName (s.qualify lib vars "") ∨ TypeName.simpleName (s.qualify lib vars "") = "" := by
  rcases s.qualify_cases lib vars "" with same | ⟨package, -, within⟩ | imported
  · rw [same]
    exact .inr (by decide)
  · rw [within]
    exact .inr (TypeName.simpleName_append package (by decide))
  · have entry := parted.imports _ (mem_of_lookup_eq_some imported)
    exact .inl entry

end Scope

/-! ### Supertypes -/

namespace Library

variable {lib : Library}

/-- **Declared supertypes** have names that are made of parts, where declarations are read from texts. -/
theorem isPathName_of_extends
    (parsed : ∀ X u decl, lib.declaration X = .ok (u, decl) → ∃ text, parse text = .ok u) {X S : String}
    (edge : lib.Extends X S) (isDeclared : ∃ p, lib.declaration S = .ok p) : IsPathName S := by
  obtain ⟨⟨v, declS⟩, declaredS⟩ := isDeclared
  obtain ⟨textS, readS⟩ := parsed S v declS declaredS
  obtain ⟨-, -, -, foundS⟩ := SourceLoader.declaration_eq_ok.mp declaredS
  have simpleName : TypeName.simpleName S ≠ "" := fun empty => by
    have isName := (headed_of_parse readS (List.mem_of_find?_eq_some foundS)).1
    have same := List.find?_some foundS
    rw [beq_iff_eq.mp same, empty] at isName
    exact ne_nil_of_isIdentifier isName rfl
  obtain ⟨u, decl, declared, ref, isSuper, rfl, -⟩ := edge
  obtain ⟨text, read⟩ := parsed X u decl declared
  obtain ⟨-, -, -, found⟩ := SourceLoader.declaration_eq_ok.mp declared
  have parted := Scope.parted_of_parse read decl
  have worded := worded_of_parse read (List.mem_of_find?_eq_some found) isSuper
  rw [Scope.qualifySupertype] at simpleName ⊢
  cases isSegments : ref.segments with
  | nil =>
    have empty : ref.qualifiedName = "" := by rw [TypeRef.qualifiedName, isSegments]; rfl
    have unknown : Scope.wellKnown.contains "" = false := by decide
    have plain : TypeName.isDotted "" = false := by decide
    simp only [empty, plain, unknown, Bool.false_eq_true, and_false, if_false] at simpleName ⊢
    exact (parted.qualify_empty lib []).resolve_right simpleName
  | cons first others =>
    have isName : IsPathName ref.qualifiedName := by
      rw [TypeRef.qualifiedName]
      refine .join (List.forall_mem_map.mpr fun segment member => .inl ?_) (by simp [isSegments])
      exact worded ref ref.self_mem_parts segment member
    have prefix_ : IsPathName "java.lang" := by
      rw [IsPathName]
      decide
    have java : IsPathName ("java.lang" ++ "." ++ ref.qualifiedName) := prefix_.append isName
    dsimp only
    split_ifs
    · exact isName
    · exact java
    · exact parted.qualify isName

end Library

/-! ### Paths -/

/-- A path that leads through names only is relative. -/
theorem Path.isAbsolute_of_names {path : String} (names : ∀ c ∈ Path.written path, Path.IsEntryName c) :
    Path.isAbsolute path = false := by
  rw [Bool.eq_false_iff]
  intro absolute
  obtain ⟨rest, chars⟩ := Path.isAbsolute_iff.mp absolute
  have same : path = "" ++ "/" ++ String.ofList rest := String.toList_injective (by simp [chars])
  have blank : "" ∈ Path.written path := by
    rw [same, Path.written_append]
    exact List.mem_append_left _ (by decide)
  exact (names "" blank).some_ rfl

namespace SourceLoader

/-- **The source of a type** is looked for through directories that are named by the parts of its name. -/
theorem isEntryName_relativePath {name : String} (isName : IsPathName name) :
    ∀ c ∈ Path.written (relativePath name), Path.IsEntryName c := by
  have isPart (part : String) (member : part ∈ Text.split '.' name) : Path.IsEntryName part := by
    obtain ⟨some_, free⟩ := isName part member
    have noPoint := Text.not_mem_of_mem_split member
    exact ⟨some_, fun here => noPoint (by rw [here]; decide), fun up => noPoint (by rw [up]; decide), free⟩
  have isFile (last : String) (member : last ∈ Text.split '.' name) :
      ∀ c ∈ Path.written (last ++ ".java"), Path.IsEntryName c := by
    have free : '/' ∉ (last ++ ".java").toList := by
      rw [String.toList_append, List.mem_append, not_or]
      exact ⟨(isName last member).2, by decide⟩
    have long : 2 < (last ++ ".java").length := by
      have ending : ".java".length = 5 := by decide
      rw [String.length_append, ending]
      omega
    have written : Path.written (last ++ ".java") = [last ++ ".java"] := by
      rw [Path.written, Text.split, Text.pieces_free free, List.map_singleton, String.ofList_toList]
    rw [written, List.forall_mem_singleton]
    exact ⟨fun empty => absurd long (by rw [empty]; decide), fun here => absurd long (by rw [here]; decide),
      fun up => absurd long (by rw [up]; decide), free⟩
  rw [relativePath]
  obtain split | ⟨front, last, split⟩ := (Text.split '.' name).eq_nil_or_concat
  · exact absurd split (Text.split_ne_nil '.' name)
  rw [List.concat_eq_append] at split
  rw [split] at isPart isFile ⊢
  have isLast := isFile last (List.mem_append_right _ (List.mem_singleton_self last))
  rcases eq_or_ne front [] with rfl | some_
  · exact isLast
  · have isFront : Path.written (Text.join "/" front) = front :=
      Text.split_join (fun part member => (isPart part (List.mem_append_left _ member)).free) some_
    rw [Path.slash_eq, Text.join_append some_, String.append_assoc, ← Path.slash_eq, Path.written_append, isFront]
    exact List.forall_mem_append.mpr ⟨fun part member => isPart part (List.mem_append_left _ member), isLast⟩

/-- **Different names have different paths.** -/
theorem relativePath_inj {name other : String} (isName : IsPathName name) (isOther : IsPathName other)
    (same : relativePath name = relativePath other) : name = other := by
  have parts {name : String} (isName : IsPathName name) :
      Text.split '/' (Text.join "/" (Text.split '.' name)) = Text.split '.' name :=
    Text.split_join (fun part member => (isName part member).2) (Text.split_ne_nil '.' name)
  have whole (name : String) : Text.join "." (Text.split '.' name) = name := by
    refine String.toList_injective ((Text.toList_join_split '.' '.' name).trans ?_)
    refine (List.map_congr_left fun c _ => ?_).trans (List.map_id _)
    split_ifs with point
    · exact point.symm
    · rfl
  have sameParts := congrArg (Text.split '/') (String.append_left_inj _ |>.mp same)
  rw [parts isName, parts isOther] at sameParts
  rw [← whole name, sameParts, whole]

end SourceLoader

end Forwarder
