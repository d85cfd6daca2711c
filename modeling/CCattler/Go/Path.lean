import CCattler.Go.Strings

/-! # Slash-separated paths

Package `path/filepath` on a Unix system.
-/

namespace Go

/-- The elements of a cleaned path, last one first. -/
def cleanElements (rooted : Bool) (elements : List Str) : List Str :=
  elements.foldl (fun kept element =>
    if element = [] ∨ element = lit "." then kept
    else if element = lit ".." then
      match kept with
      | [] => if rooted then [] else [element]
      | last :: rest => if last = lit ".." then element :: kept else rest
    else element :: kept) []

/-- `filepath.Clean`. -/
def cleanPath (path : Str) : Str :=
  let rooted := path.head? = some Str.slash
  let joined := Str.join [Str.slash] (cleanElements rooted (Str.split Str.slash path)).reverse
  if rooted then Str.slash :: joined else if joined = [] then lit "." else joined

/-- `filepath.Join`, with its empty elements left out. -/
def joinPath (elements : List Str) : Str :=
  let present := elements.filter (fun element => element ≠ [])
  if present = [] then [] else cleanPath (Str.join [Str.slash] present)

example : cleanPath (lit "/run/../etc//./cca/") = lit "/etc/cca" := by decide

end Go
