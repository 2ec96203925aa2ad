/-!
# Request targets

What a request is about is named by its target: a path, perhaps with a query and
a fragment behind it, or the same behind the scheme and the authority of a server.
Behind an authority the path may be missing, and then it is the root. A target of
any other form, such as an authority alone, has no path.
-/

namespace RecordStore.Target

/-- The characters that a scheme is made of: letters, digits and four signs. -/
def isSchemeChar (c : Char) : Bool :=
  c.isAlphanum || c = '+' || c = '-' || c = '.' || c = '~'

/-- What stands behind the scheme and its slashes, if there is a scheme. -/
def behindScheme? (cs : List Char) : Option (List Char) :=
  match cs.dropWhile isSchemeChar with
  | ':' :: '/' :: '/' :: rest => some rest
  | _ => none

/-- What stands in front of a query or a fragment. -/
def beforeQuery (cs : List Char) : List Char :=
  cs.takeWhile fun c => c ≠ '?' && c ≠ '#'

/-- What stands behind an authority. -/
def behindAuthority (cs : List Char) : List Char :=
  cs.dropWhile fun c => c ≠ '/' && c ≠ '?' && c ≠ '#'

/-- **The path of a target**, if it has one. -/
def path? (target : String) : Option String :=
  match target.toList with
  | '/' :: rest => some (String.ofList ('/' :: beforeQuery rest))
  | cs =>
    (behindScheme? cs).map fun rest =>
      match beforeQuery (behindAuthority rest) with
      | [] => "/"
      | path => String.ofList path

end RecordStore.Target
