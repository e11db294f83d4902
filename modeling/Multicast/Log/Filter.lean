import Multicast.Log

/-! Log filters such as `warn` or `info,switch=debug`: the directive with the longest target that
begins the target of a line decides whether the line is shown. -/
namespace Multicast.Log

/-- Shows lines of targets that begin with `target` up to the level `max`; no level shows none. -/
structure Filter.Directive where
  target : List Char
  max : Option Level
  deriving DecidableEq, Repr

structure Filter where
  directives : List Filter.Directive
  deriving DecidableEq, Repr

namespace Filter

/-- A level in any case of letters, or `off`. -/
def level? (cs : List Char) : Option (Option Level) :=
  match String.ofList (cs.map Char.toLower) with
  | "off" => some none
  | "error" => some (some .error)
  | "warn" => some (some .warn)
  | "info" => some (some .info)
  | "debug" => some (some .debug)
  | "trace" => some (some .trace)
  | _ => none

def trim (cs : List Char) : List Char :=
  ((cs.dropWhile Char.isWhitespace).reverse.dropWhile Char.isWhitespace).reverse

/-- A level for all targets, a target for all levels, or both with an equals sign between. -/
def directive? (cs : List Char) : Option Directive :=
  let target := cs.takeWhile (· != '=')
  match cs.dropWhile (· != '=') with
  | [] =>
    match level? target with
    | some max => some ⟨[], max⟩
    | none => some ⟨target, some .trace⟩
  | _ :: rest =>
    match trim rest with
    | [] => some ⟨target, some .trace⟩
    | level => (level? level).map (⟨target, ·⟩)

/-- The parts between commas. -/
def parts : List Char → List (List Char)
  | [] => [[]]
  | c :: rest =>
    if c = ',' then [] :: parts rest
    else
      match parts rest with
      | [] => [[c]]
      | part :: more => (c :: part) :: more

/-- Parts that are no directive are passed over; if none is left, errors alone are shown. -/
def ofText (text : String) : Filter :=
  let given := (parts text.toList).map trim |>.filter (!·.isEmpty)
  match given.filterMap directive? with
  | [] => ⟨[⟨[], some .error⟩]⟩
  | directives => ⟨directives⟩

/-- The later of two directives with targets of equal length counts. -/
def governing? (f : Filter) (target : String) : Option Directive :=
  (f.directives.filter fun d => d.target.isPrefixOf target.toList).foldl
    (fun best d =>
      match best with
      | some b => if b.target.length ≤ d.target.length then some d else some b
      | none => some d)
    none

def shows (f : Filter) (target : String) (level : Level) : Bool :=
  match (f.governing? target).bind (·.max) with
  | some max => level.rank ≤ max.rank
  | none => false

end Filter

end Multicast.Log
