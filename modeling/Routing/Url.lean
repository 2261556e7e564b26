import Routing.Generation
import Routing.Query

/-!
# URLs

A URL is a generated path with what surrounds it: scheme, host and port, the script name before the
path, and the query and the anchor after it.

* `Table.urlFor` — the URL for options and recalled parameters
* `Url.origin` — scheme, host and port, when the options ask for them
-/

namespace Routing

namespace Url

/-- The scheme without a colon and slashes at its end; the text stands backwards. -/
def trimSlashes : Text → Text
  | '/' :: '/' :: ':' :: s => trimSlashes s
  | s => s

/-- The scheme without the marks that separate it from the host. -/
def scheme (protocol : Text) : Text :=
  Text.trimEnd (· = ':') (trimSlashes protocol.reverse).reverse

/-- Scheme, host and port. They are left out when the options have no host or ask for the path only;
to ask for more than the path without a host is an error. -/
def origin (options : Params) : Except GenerationError Text :=
  match Params.givenParam? options Reserved.host,
      (options.get? Reserved.onlyPath).map Value.isTruthy with
  | some host, none | some host, some false =>
    let protocol := (Params.givenParam? options Reserved.protocol).getD "http".toList
    let port := (Params.givenParam? options Reserved.port).elim [] (':' :: ·)
    .ok (scheme protocol ++ "://".toList ++ host ++ port)
  | none, some false => .error .missingHost
  | _, _ => .ok []

def script (options : Params) : Text :=
  (Params.givenParam? options Reserved.scriptName).elim [] (Text.trimEnd (· = '/'))

/-- The path, with a slash at its end when the options ask for one. -/
def withSlash (options : Params) (path : Text) : Text :=
  if (Params.given? options Reserved.trailingSlash).isSome ∧ path.getLast? ≠ some '/' then
    path ++ ['/']
  else path

/-- The query string of the parameters left over, after a question mark unless it is empty. -/
def query (extras : Params) : Text :=
  match Query.ofParams extras with
  | [] => []
  | text => '?' :: text

/-- The escaped anchor after a number sign. -/
def anchor (options : Params) : Text :=
  (Params.givenParam? options Reserved.anchor).elim [] fun t => '#' :: Path.escape t

end Url

/-- The URL for options and recalled parameters. -/
def Table.urlFor [Properties] (t : Table) (options recalled : Params) :
    Except GenerationError Text := do
  -- first, so that a missing host is told before a missing route
  let origin ← Url.origin options
  let link ← t.generate options recalled
  return origin ++ Url.script options ++ Url.withSlash options link.path ++ Url.query link.extras ++
    Url.anchor options

end Routing
