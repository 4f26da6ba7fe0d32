/-!
First and repeated occurrences in a list, told apart by a key. Every rule of the form "the first
declaration of a name counts, each further one is reported" is stated with these two functions:
`firstsBy` keeps what counts and `repeatsBy` lists what is reported.
-/

namespace Composer

variable {Element Key : Type} [DecidableEq Key]

/-- Elements whose key is neither in `seen` nor the key of an earlier element. -/
def firstsAfter (key : Element → Key) (seen : List Key) : List Element → List Element
  | [] => []
  | element :: rest =>
      if key element ∈ seen then firstsAfter key seen rest
      else element :: firstsAfter key (key element :: seen) rest

/-- Elements whose key is in `seen` or is the key of an earlier element. -/
def repeatsAfter (key : Element → Key) (seen : List Key) : List Element → List Element
  | [] => []
  | element :: rest =>
      if key element ∈ seen then element :: repeatsAfter key seen rest
      else repeatsAfter key (key element :: seen) rest

def firstsBy (key : Element → Key) (elements : List Element) : List Element :=
  firstsAfter key [] elements

def repeatsBy (key : Element → Key) (elements : List Element) : List Element :=
  repeatsAfter key [] elements

end Composer
