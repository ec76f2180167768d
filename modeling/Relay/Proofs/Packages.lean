import Relay.Proofs.Requires

/-!
# Packages and their mark

What a file requires is looked for if it is local or namespaced, and a
specifier is namespaced if it starts with the mark of packages or names a
package of the table.  The dependency that comes of it is called namespaced for
the mark alone, and the analysis goes on with those that are local or called
namespaced.

So a file can be found and not gone on with: when its specifier names a package
that does not bear the mark (`not_followed_unmarked`).  If all packages of the
table bear the mark, the two readings of "namespaced" are one, and the analysis
goes on with every file that is found (`followed_of_marked`).
-/

namespace Relay

namespace Text

variable {s t u : String}

/-- A text starts with another one just when its characters do. -/
theorem startsWith_iff : startsWith s t = true ↔ t.toList <+: s.toList := by
  rw [startsWith, List.isPrefixOf_iff_prefix]

/-- Starting with a text is starting with what that one starts with. -/
theorem startsWith_trans (h : startsWith s t = true)
    (h' : startsWith t u = true) :
    startsWith s u = true := by
  rw [startsWith_iff] at h h' ⊢
  exact h'.trans h

/-- A text that goes on starts with what it goes on from. -/
theorem startsWith_append (t u : String) : startsWith (t ++ u) t = true := by
  rw [startsWith_iff, String.toList_append]
  exact List.prefix_append _ _

end Text

namespace Resolver

variable {r : Resolver} {specifier : String}

/-- A specifier stands for a package, or for something in it. -/
def Names (name specifier : String) : Prop :=
  specifier = name ∨ Text.startsWith specifier (name ++ "/") = true

/-- A specifier that names a package starts with what the package starts
with. -/
theorem Names.startsWith {name mark : String} (h : Names name specifier)
    (hmark : Text.startsWith name mark = true) :
    Text.startsWith specifier mark = true := by
  rcases h with rfl | h
  · exact hmark
  · exact Text.startsWith_trans
      (Text.startsWith_trans h (Text.startsWith_append _ _)) hmark

/-- All packages of the table bear the mark. -/
def Marked (r : Resolver) : Prop :=
  ∀ package ∈ r.config.packages,
    Text.startsWith package.1 r.config.packageMark = true

instance (r : Resolver) : Decidable r.Marked :=
  inferInstanceAs (Decidable (∀ package ∈ r.config.packages, _))

/-- A specifier is namespaced just when it names a package or starts with the
mark. -/
theorem isNamespaced_iff : r.isNamespaced specifier = true ↔
    (∃ package ∈ r.config.packages, Names package.1 specifier) ∨
      Text.startsWith specifier r.config.packageMark = true := by
  simp [isNamespaced, Names]

/-- **One reading of "namespaced".**  The mark alone tells what is namespaced
just when all packages bear it. -/
theorem isNamespaced_eq_iff_marked :
    (∀ specifier, r.isNamespaced specifier
      = Text.startsWith specifier r.config.packageMark) ↔ r.Marked := by
  constructor
  · intro h package hpackage
    rw [← h, isNamespaced_iff]
    exact .inl ⟨package, hpackage, .inl rfl⟩
  · intro h specifier
    rw [Bool.eq_iff_iff, isNamespaced_iff]
    refine ⟨?_, .inr⟩
    rintro (⟨package, hpackage, hnames⟩ | hmark)
    · exact hnames.startsWith (h package hpackage)
    · exact hmark

/-- Only what is local or namespaced is looked for. -/
theorem looked_for_of_resolve {fs : Files} {file q : Path}
    (h : r.resolve fs specifier file = .ok (.found q)) :
    isLocalSpecifier specifier = true ∨ r.isNamespaced specifier = true := by
  unfold resolve at h
  split at h
  · rename_i hlocal
    exact .inl hlocal
  · split at h
    · rename_i hnamespaced
      exact .inr hnamespaced
    · cases h

end Resolver

/-- The flags of a dependency are read off its specifier, and one with a file
was looked for. -/
theorem flags_of_dependencyOf {r : Resolver} {fs : Files} {file : Path}
    {requirement : Analysis.Requirement} {d : Dependency} {log : List LogEntry}
    (h : dependencyOf r fs file requirement = .ok (d, log)) :
    d.isLocal = isLocalSpecifier d.specifier ∧
    d.isNamespaced = Text.startsWith d.specifier r.config.packageMark ∧
    ∀ q, d.path = some q →
      isLocalSpecifier d.specifier = true ∨
        r.isNamespaced d.specifier = true := by
  obtain ⟨outcome, hout, h⟩ := exists_of_bind_eq_ok h
  cases h
  refine ⟨rfl, rfl, fun q hq => ?_⟩
  cases outcome with
  | found path => exact Resolver.looked_for_of_resolve hout
  | foreign => cases hq
  | missing => cases hq

namespace Scene

/-- Where every dependency with a file is flagged, the analysis goes on with all
files in order. -/
theorem followed_eq_filterMap {ds : List Dependency}
    (h : ∀ d ∈ ds, d.path.isSome → d.isLocal ∨ d.isNamespaced) :
    followed ds = ds.filterMap (·.path) := by
  refine List.filterMap_congr fun d hd => ?_
  cases hpath : d.path with
  | none => simp
  | some q => rw [if_pos (h d hd (by simp [hpath]))]

/-- The file that requires a package in the scenes below. -/
def packedFile : Path :=
  ⟨.here, ["ws", "a.js"]⟩

/-- The file of the package. -/
def packedIndex : Path :=
  ⟨.here, ["ws", "lib", "index.js"]⟩

/-- A workspace with one package of a given name and a file that requires it. -/
def packed (name : String) : Scene where
  files :=
    { entries := [
        (["R", "ws"], .directory),
        (["R", "ws", "a.js"], .file ("require('" ++ name ++ "')").toUTF8 1000),
        (["R", "ws", "lib"], .directory),
        (["R", "ws", "lib", "index.js"], .file "res.locals.x=1".toUTF8 1000)]
      current := ["R"] }
  resolver := ⟨{ Config.usual (.ofString "ws") "m" with
    packages := [(name, "lib")], libraryPatterns := [] }, []⟩

/-- What the file requires if the package bears the mark, and if it does not. -/
theorem layout_packed :
    (packed "@opus/agl-lib").resolver.Marked ∧
    ((packed "@opus/agl-lib").own? packedFile).map (·.dependencies)
      = some [⟨"@opus/agl-lib", "", some packedIndex, 1, false, true⟩] ∧
    ((packed "lib").own? packedFile).map (·.dependencies)
      = some [⟨"lib", "", some packedIndex, 1, false, false⟩] ∧
    ((packed "lib").own? packedIndex).isSome := by
  decide +kernel

/-- **Found and gone on with.**  The mark alone tells what is namespaced just
when all packages bear it.  In every source, a dependency that has a file and
is neither local nor called namespaced names a package that does not bear the
mark.  Hence, if all packages bear it, every dependency with a file is local or
called namespaced, and the analysis goes on with all the files in order. -/
theorem followed_of_marked (r : Resolver) :
    ((∀ specifier, r.isNamespaced specifier
      = Text.startsWith specifier r.config.packageMark) ↔ r.Marked) ∧
    ∀ fs source log facts, factsOf r fs source = (log, .ok facts) →
      (∀ d ∈ facts.dependencies, d.path.isSome →
        ¬ (d.isLocal ∨ d.isNamespaced) →
        ∃ package ∈ r.config.packages, Resolver.Names package.1 d.specifier ∧
          ¬ Text.startsWith package.1 r.config.packageMark) ∧
      (r.Marked →
        (∀ d ∈ facts.dependencies, d.path.isSome → d.isLocal ∨ d.isNamespaced) ∧
        followed facts.dependencies
          = facts.dependencies.filterMap (·.path)) := by
  refine ⟨Resolver.isNamespaced_eq_iff_marked,
    fun fs source log facts hfacts => ?_⟩
  have hunmarked : ∀ d ∈ facts.dependencies, d.path.isSome →
      ¬ (d.isLocal ∨ d.isNamespaced) →
      ∃ package ∈ r.config.packages, Resolver.Names package.1 d.specifier ∧
        ¬ Text.startsWith package.1 r.config.packageMark := by
    intro d hd hpath hflags
    obtain ⟨requirement, -, entries, hdep⟩ :=
      exists_dependencyOf (dependenciesOf_of_factsOf hfacts) d hd
    obtain ⟨hlocal, hnamespaced, hlooked⟩ := flags_of_dependencyOf hdep
    obtain ⟨q, hq⟩ := Option.isSome_iff_exists.mp hpath
    rw [not_or, hlocal, hnamespaced] at hflags
    rcases Resolver.isNamespaced_iff.mp ((hlooked q hq).resolve_left hflags.1)
        with
      ⟨package, hpackage, hnames⟩ | hmark
    · exact ⟨package, hpackage, hnames,
        fun hmark => hflags.2 (hnames.startsWith hmark)⟩
    · exact absurd hmark hflags.2
  refine ⟨hunmarked, fun hmarked => ?_⟩
  have hflagged : ∀ d ∈ facts.dependencies, d.path.isSome →
      d.isLocal ∨ d.isNamespaced := by
    intro d hd hpath
    by_contra hflags
    obtain ⟨package, hpackage, -, hunmarked⟩ := hunmarked d hd hpath hflags
    exact hunmarked (hmarked package hpackage)
  exact ⟨hflagged, followed_eq_filterMap hflagged⟩

/-- A package that bears the mark is gone on with. -/
theorem followed_packed :
    (packed "@opus/agl-lib").resolver.Marked ∧
    ∃ facts, (packed "@opus/agl-lib").own? packedFile = some facts ∧
      followed facts.dependencies = [packedIndex] := by
  obtain ⟨hmarked, hdeps, -⟩ := layout_packed
  obtain ⟨facts, hown, hdeps⟩ := Option.map_eq_some_iff.mp hdeps
  obtain ⟨bytes, modified, source, log, -, -, hfacts⟩ :=
    own?_eq_some_iff.mp hown
  obtain ⟨-, hall⟩ := followed_of_marked (packed "@opus/agl-lib").resolver
  refine ⟨hmarked, facts, hown, ?_⟩
  rw [((hall _ source log facts hfacts).2 hmarked).2, hdeps]
  rfl

/-- **Found and not gone on with.**  A file requires a package of the table
that does not bear the mark.  The file of the package is found and has facts of
its own, but it is neither local nor called namespaced, and the analysis goes
on with nothing. -/
theorem not_followed_unmarked :
    ∃ facts d, (packed "lib").own? packedFile = some facts ∧
      d ∈ facts.dependencies ∧
      d.path = some packedIndex ∧ ((packed "lib").own? packedIndex).isSome ∧
      ¬ (d.isLocal ∨ d.isNamespaced) ∧
        (packed "lib").required packedFile = [] := by
  obtain ⟨-, -, hdeps, hindex⟩ := layout_packed
  obtain ⟨facts, hown, hdeps⟩ := Option.map_eq_some_iff.mp hdeps
  refine ⟨facts, ⟨"lib", "", some packedIndex, 1, false, false⟩, hown, ?_,
    rfl, hindex, by simp, ?_⟩
  · rw [hdeps]
    exact List.mem_singleton_self _
  · rw [required_of_own? hown, hdeps]
    rfl

end Scene

end Relay
