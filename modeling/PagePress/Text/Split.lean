namespace PagePress.Text

variable {α : Type}

section Pieces

variable [DecidableEq α]

def pushPiece (separator a : α) (cut : List (List α)) : List (List α) :=
  if a = separator then [] :: cut
  else match cut with
    | [] => [[a]]
    | piece :: rest => (a :: piece) :: rest

def pieces (separator : α) (s : List α) : List (List α) := s.foldr (pushPiece separator) [[]]

end Pieces

def trim (p : α → Bool) (s : List α) : List α :=
  ((s.dropWhile p).reverse.dropWhile p).reverse

end PagePress.Text
