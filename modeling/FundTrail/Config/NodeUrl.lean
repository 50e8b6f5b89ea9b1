/-
  FundTrail.Config.NodeUrl
  ────────────────────────
  **ADDRESSES OF NODES WITHOUT THEIR KEYS.**

  The address of a node often carries a key behind the host.  What is logged of
  it ends with the host; an address that does not even name a scheme is not
  shown at all.
-/

namespace FundTrail.NodeUrl

/-- The characters before and behind the first `://`. -/
def splitScheme? : List Char → Option (List Char × List Char)
  | [] => none
  | ':' :: '/' :: '/' :: rest => some ([], rest)
  | c :: cs => (splitScheme? cs).map fun (scheme, rest) => (c :: scheme, rest)

/-- What may be shown of an address. -/
def mask (url : String) : String :=
  match splitScheme? url.toList with
  | some (scheme, rest) =>
      String.ofList scheme ++ "://" ++ String.ofList (rest.takeWhile (· ≠ '/')) ++ "/•••"
  | none => "•••"

end FundTrail.NodeUrl
