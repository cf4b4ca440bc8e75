import Mathlib.Tactic.Common
import Unveil.Image.Search

namespace Unveil

namespace ImageCache

variable (c : ImageCache) (name path : String)

/-- A name that was put in is found. -/
theorem get?_insert_self : (c.insert name path).get? name = some path := by
  rw [insert, get?, List.lookup_cons, beq_self_eq_true]

theorem get?_insert_of_ne {other : String} (apart : other ≠ name) : (c.insert name path).get? other = c.get? other := by
  have kept (entries : List (String × String)) :
      (entries.filter fun entry => entry.1 != name).lookup other = entries.lookup other := by
    induction entries with
    | nil => rfl
    | cons entry rest ih =>
      by_cases same : entry.1 = name
      · have elsewhere : (other == entry.1) = false := beq_false_of_ne (same ▸ apart)
        rw [List.filter_cons_of_neg (by simp [same]), ih, List.lookup_cons, elsewhere]
      · rw [List.filter_cons_of_pos (by simp [same]), List.lookup_cons, List.lookup_cons, ih]
  rw [insert, get?, get?, List.lookup_cons, beq_false_of_ne apart]
  exact kept c.entries

end ImageCache

namespace ImageSearch

/-- The paths that a name may stand for, in the order of the search. -/
def places (s : ImageSearch) (name : String) : List String :=
  (if Path.isAbsolute name then [""] else s.directories).flatMap fun directory => candidates directory name

/-- A search finds the first of its places that is a file, and tells its directories if there is none. -/
theorem search_eq (s : ImageSearch) (isFile : String → Bool) (name : String) :
    s.search isFile name =
      match (s.places name).find? isFile with
      | some path => .ok path
      | none => .error (.imageNotFound name s.directories) := by
  rw [places, List.find?_flatMap]
  rfl

end ImageSearch

/-- A name that one of the searches is asked for. -/
structure Lookup where
  search : ImageSearch
  name : String

namespace Lookup

/-- What the search finds by itself. -/
def answer (isFile : String → Bool) (l : Lookup) : Except DeckError String :=
  match (l.search.places l.name).find? isFile with
  | some path => .ok path
  | none => .error (.imageNotFound l.name l.search.directories)

/-- What a search has found for a name, a later one finds for it too. -/
def FoundAgain (isFile : String → Bool) (first later : Lookup) : Prop :=
  first.name = later.name → ∀ path, first.answer isFile = .ok path → later.answer isFile = .ok path

end Lookup

namespace ImageSearch

open Lookup (answer FoundAgain)

/-- The answers to names that are asked one after the other, of searches that share a cache. -/
def resolveAll (isFile : String → Bool) (cache : ImageCache) : List Lookup → List (Except DeckError String)
  | [] => []
  | l :: rest =>
    let (found, cache) := l.search.resolve isFile cache l.name
    found :: resolveAll isFile cache rest

variable {isFile : String → Bool} {cache : ImageCache} {l : Lookup}

/-- A name in the cache is not searched. -/
theorem resolve_cached {path : String} (kept : cache.get? l.name = some path) :
    l.search.resolve isFile cache l.name = (.ok path, cache) := by
  rw [resolve, kept]

theorem resolve_found {path : String} (new : cache.get? l.name = none) (found : l.answer isFile = .ok path) :
    l.search.resolve isFile cache l.name = (.ok path, cache.insert l.name path) := by
  have searched : l.search.search isFile l.name = .ok path := (search_eq ..).trans found
  rw [resolve, new]
  dsimp only
  rw [searched]

theorem resolve_missing {error : DeckError} (new : cache.get? l.name = none)
    (missing : l.answer isFile = .error error) :
    l.search.resolve isFile cache l.name = (.error error, cache) := by
  have searched : l.search.search isFile l.name = .error error := (search_eq ..).trans missing
  rw [resolve, new]
  dsimp only
  rw [searched]

/-- The invariant is the premise about the cache: what is kept of a name is what all that still ask for it find. -/
theorem resolveAll_eq_iff (cache : ImageCache) (lookups : List Lookup) :
    resolveAll isFile cache lookups = lookups.map (answer isFile) ↔
      lookups.Pairwise (FoundAgain isFile) ∧
        ∀ l ∈ lookups, ∀ path, cache.get? l.name = some path → l.answer isFile = .ok path := by
  induction lookups generalizing cache with
  | nil => exact iff_of_true rfl ⟨.nil, nofun⟩
  | cons l rest ih =>
    rw [resolveAll, List.map_cons, List.cons.injEq, List.pairwise_cons, List.forall_mem_cons]
    cases kept : cache.get? l.name with
    | some path =>
      rw [resolve_cached kept, ih]
      constructor
      · rintro ⟨here, later, same⟩
        refine ⟨⟨fun r inRest named found cached => ?_, later⟩, fun _ eq => Option.some.inj eq ▸ here.symm, same⟩
        obtain rfl : path = found := Except.ok.inj (here.trans cached)
        exact same r inRest path (named ▸ kept)
      · rintro ⟨⟨_, later⟩, here, same⟩
        exact ⟨(here path rfl).symm, later, same⟩
    | none =>
      cases own : l.answer isFile with
      | error fault =>
        rw [resolve_missing kept own, ih]
        constructor
        · rintro ⟨-, later, same⟩
          exact ⟨⟨fun r _ _ path found => absurd (own.symm.trans found) nofun, later⟩, nofun, same⟩
        · rintro ⟨⟨_, later⟩, -, same⟩
          exact ⟨rfl, later, same⟩
      | ok path =>
        rw [resolve_found kept own, ih]
        constructor
        · rintro ⟨-, later, same⟩
          refine ⟨⟨fun r inRest named found cached => ?_, later⟩, nofun, fun r inRest other cached => ?_⟩
          · obtain rfl : path = found := Except.ok.inj (own.symm.trans cached)
            exact same r inRest path (named ▸ cache.get?_insert_self l.name path)
          · by_cases named : r.name = l.name
            · rw [named, kept] at cached
              cases cached
            · exact same r inRest other ((cache.get?_insert_of_ne l.name path named).trans cached)
        · rintro ⟨⟨again, later⟩, -, same⟩
          refine ⟨rfl, later, fun r inRest other cached => ?_⟩
          by_cases named : r.name = l.name
          · rw [named, cache.get?_insert_self] at cached
            exact again r inRest named.symm other (own.trans (congrArg Except.ok (Option.some.inj cached)))
          · exact same r inRest other ((cache.get?_insert_of_ne l.name path named).symm.trans cached)

/-- With a shared cache that is empty at first, every name is answered as if its search had been made exactly if
what one search finds for a name is what all later ones find for it. The cache keeps a path by the name alone, so
a name that one search has found is answered to all of them. -/
theorem resolveAll_eq_answers_iff (isFile : String → Bool) (lookups : List Lookup) :
    resolveAll isFile .empty lookups = lookups.map (answer isFile) ↔ lookups.Pairwise (FoundAgain isFile) := by
  rw [resolveAll_eq_iff]
  exact ⟨And.left, fun again => ⟨again, fun _ _ _ kept => absurd kept nofun⟩⟩

/-- A logo in each of two directories, of which the second search knows only its own. -/
def twoLogos : List Lookup := [⟨.ofPaths "one" [], "logo"⟩, ⟨.ofPaths "two" [], "logo"⟩]

/-- The second search is answered with a file outside of its directories. -/
theorem resolveAll_twoLogos :
    let isFile : String → Bool := fun path => path = "one/logo.png" ∨ path = "two/logo.png"
    resolveAll isFile .empty twoLogos = [.ok "one/logo.png", .ok "one/logo.png"] ∧
      twoLogos.map (answer isFile) = [.ok "one/logo.png", .ok "two/logo.png"] := by
  exact ⟨by decide +kernel, by decide +kernel⟩

end ImageSearch

end Unveil
