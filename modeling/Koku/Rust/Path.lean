import Koku.Rust.Str

/-! # Paths

`std::path` with a slash as separator (`parent`, `join`). Empty parts and dots between separators
are no components, apart from a dot a relative path begins with. -/

namespace Koku.Rust.Path

open Rust.Str

/-- How much of a path comes before its components: the root, or a dot at the beginning. -/
def lenBeforeBody : Text → ℕ
  | '/' :: _ => 1
  | ['.'] => 1
  | '.' :: '/' :: _ => 1
  | _ => 0

def lastPart (body : Text) : Text := body.rtakeWhile (· ≠ '/')

/-- The body without its last part and the separator in front of it. -/
def dropPart (body : Text) : Text := (body.rdropWhile (· ≠ '/')).dropLast

/-- `trim_right`: the parts at the end that are no components are dropped. -/
def trimRight : ℕ → Text → Text
  | 0, body => body
  | n + 1, body =>
    if body ≠ [] ∧ (lastPart body = [] ∨ lastPart body = ['.']) then trimRight n (dropPart body)
    else body

/-- `Path::parent`. -/
def parent (path : Text) : Option Text :=
  let (head, body) := path.splitAt (lenBeforeBody path)
  let body := trimRight body.length body
  if body ≠ [] then some (head ++ trimRight body.length (dropPart body))
  else if head = ['.'] then some []
  else none

/-- `Path::join`. -/
def join (dir name : Text) : Text :=
  if name.head? = some '/' then name
  else if dir = [] ∨ dir.getLast? = some '/' then dir ++ name
  else dir ++ '/' :: name

example : [("/data/app/lib/libpsiphon.so"), "/a", "/", "a//./b/", "a", ".", "./a", "", ".."].map
    (fun p => (parent p.toList).map String.ofList) =
    [some "/data/app/lib", some "/", none, some "a", some "", some "", some ".", none,
      some ""] := by
  decide

end Koku.Rust.Path
