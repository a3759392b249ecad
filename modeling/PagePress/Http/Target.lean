import PagePress.Url

namespace PagePress.Http

def afterScheme? (target : List Char) : Option (List Char) :=
  match target.dropWhile Url.isSchemeChar with
  | ':' :: '/' :: '/' :: rest => some rest
  | _ => none

-- A query or a fragment is no part of the path. A whole address has a path too; what is neither a
-- path nor a whole address has none.
def pathOf (target : String) : String :=
  let path (cs : List Char) : List Char := cs.takeWhile (!Url.endsPath ·)
  match target.toList with
  | '/' :: rest => String.ofList (path ('/' :: rest))
  | cs =>
    match afterScheme? cs with
    | none => ""
    | some rest =>
      let path := path (rest.dropWhile (!Url.endsAuthority ·))
      if path.isEmpty then "/" else String.ofList path

end PagePress.Http
