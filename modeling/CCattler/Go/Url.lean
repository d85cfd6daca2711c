import CCattler.Go.Strconv

/-! # Connection URLs

The part of package `net/url` that writes a URL with a scheme, an optional user,
a host and a path, and the address forms of package `net`.
-/

namespace Go

/-- The encodings of `url.escape` that a URL without query uses. -/
inductive UrlEncoding where
  | path
  | userPassword
  | host

/-- `[A-Za-z0-9]`. -/
def isAlphanumeric (b : UInt8) : Bool :=
  (97 ≤ b && b ≤ 122) || (65 ≤ b && b ≤ 90) || (48 ≤ b && b ≤ 57)

def shouldEscape (mode : UrlEncoding) (b : UInt8) : Bool :=
  if isAlphanumeric b then false
  else if (lit "-_.~").contains b then false
  else
    match mode with
    | .host => !(lit "!$&'()*+,;=:[]<>\"").contains b
    | .path => !(lit "$&+,/:;=@").contains b
    | .userPassword => !(lit "$&+,;=").contains b

def hexDigit (n : UInt8) : UInt8 := if n < 10 then 48 + n else 55 + n

/-- `url.escape`. -/
def urlEscape (mode : UrlEncoding) (s : Str) : Str :=
  s.flatMap (fun b =>
    if shouldEscape mode b then [37, hexDigit (b / 16), hexDigit (b % 16)] else [b])

/-- A URL as `(*URL).String` reads it here. -/
structure Url where
  scheme : Str
  user : Option (Str × Option Str)
  host : Str
  path : Str

/-- `(*Userinfo).String`. -/
def userinfoString : Str × Option Str → Str
  | (username, none) => urlEscape .userPassword username
  | (username, some password) =>
    urlEscape .userPassword username ++ Str.colon :: urlEscape .userPassword password

def Url.string (url : Url) : Str :=
  let scheme := if url.scheme = [] then [] else url.scheme ++ [Str.colon]
  let slashes := if url.host ≠ [] ∨ url.path ≠ [] ∨ url.user.isSome then lit "//" else []
  let user := (url.user.map (fun info => userinfoString info ++ lit "@")).getD []
  let path := if url.path = lit "*" then url.path else urlEscape .path url.path
  let separator :=
    if path ≠ [] ∧ path.head? ≠ some Str.slash ∧ url.host ≠ [] then [Str.slash] else []
  scheme ++ slashes ++ user ++ urlEscape .host url.host ++ separator ++ path

/-- `net.JoinHostPort`. -/
def joinHostPort (host port : Str) : Str :=
  if host.contains Str.colon then lit "[" ++ host ++ lit "]:" ++ port
  else host ++ Str.colon :: port

theorem Url.string_ne_nil {url : Url} (h : url.scheme ≠ []) : url.string ≠ [] := by
  simp [Url.string, h]

end Go
