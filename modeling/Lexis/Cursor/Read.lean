import Lexis.Cursor
import Lexis.Scan

/-!
# Reading tokens at a cursor

`Cursor.read` lets one reader loose on the text ahead of a cursor.  If it finds a token, the cursor
goes past it and emits; if it fails, the cursor stays where the reader stopped and the mark stays
where it was.  `Cursor.nextToken` chooses the reader by what stands ahead, and refuses the end of the
text and whitespace without moving.
-/

namespace Lexis

namespace Cursor

/-- A fault at the place where the cursor stands. -/
def failure (c : Cursor) (fault : Fault) : Failure := ⟨fault, c.pending, c.location⟩

def read (c : Cursor) (reader : Reader) : Except Failure Token × Cursor :=
  match reader.scan c.ahead with
  | .token kind n =>
      let (token, c') := (c.advanceBy n).emit kind
      (.ok token, c')
  | .fault cause n =>
      let c' := c.advanceBy n
      (.error (c'.failure cause), c')

/-- Whether whitespace stands at the index. -/
def atWhitespace (c : Cursor) : Bool := (c.unit? 0).any CodeUnit.isWhitespace

/-- **One token**, of whatever kind stands at the index. -/
def nextToken (c : Cursor) : Except Failure Token × Cursor :=
  if !c.reaches 0 then (.error (c.failure .endOfInput), c)
  else if c.atWhitespace then (.error (c.failure .atWhitespace), c)
  else c.read (Reader.dispatch c.ahead)

/-! ## Progress

A token takes the cursor forward, and no read changes the source.  So each token brings the cursor
nearer to the end of the text, which bounds how often a caller can read on.
-/

/-- How far it is from the index to the end of the text. -/
def distance (c : Cursor) : Nat := (c.source.length - c.index).toNat

theorem reaches_iff_distance_pos {c : Cursor} : c.reaches 0 = true ↔ 0 < c.distance := by
  simp only [reaches, decide_eq_true_eq, distance]
  omega

/-- A cursor that goes forward from in front of the end comes nearer to it. -/
theorem distance_lt {c c' : Cursor} (hreach : c.reaches 0 = true) (hsource : c'.source = c.source)
    (hindex : c.index < c'.index) : c'.distance < c.distance := by
  rw [reaches, decide_eq_true_eq] at hreach
  rw [distance, distance, hsource]
  omega

@[simp] theorem source_setMark (c : Cursor) : c.setMark.source = c.source := rfl

@[simp] theorem index_setMark (c : Cursor) : c.setMark.index = c.index := rfl

theorem source_read (c : Cursor) (reader : Reader) : (c.read reader).2.source = c.source := by
  unfold read
  split
  · simp [emit]
  · simp

theorem index_lt_of_read {c c' : Cursor} {reader : Reader} {token : Token}
    (h : c.read reader = (.ok token, c')) : c.index < c'.index := by
  unfold read at h
  split at h
  · next kind n hscan =>
      have hn := Reader.token_length_pos hscan
      cases h
      simp
      omega
  · cases h

theorem source_nextToken (c : Cursor) : c.nextToken.2.source = c.source := by
  unfold nextToken
  split
  · rfl
  · split
    · rfl
    · exact source_read c _

theorem index_lt_of_nextToken {c c' : Cursor} {token : Token}
    (h : c.nextToken = (.ok token, c')) : c.index < c'.index := by
  unfold nextToken at h
  split at h
  · cases h
  · split at h
    · cases h
    · exact index_lt_of_read h

theorem reaches_of_nextToken {c c' : Cursor} {token : Token}
    (h : c.nextToken = (.ok token, c')) : c.reaches 0 = true := by
  unfold nextToken at h
  split at h
  · cases h
  · next hreach => simpa using hreach

theorem atWhitespace_of_nextToken {c c' : Cursor} {token : Token}
    (h : c.nextToken = (.ok token, c')) : c.atWhitespace = false := by
  unfold nextToken at h
  split at h
  · cases h
  · split at h
    · cases h
    · next hblank => simpa using hblank

theorem distance_lt_of_nextToken {c c' : Cursor} {token : Token}
    (h : c.nextToken = (.ok token, c')) : c'.distance < c.distance := by
  have hsource := source_nextToken c
  rw [h] at hsource
  exact distance_lt (reaches_of_nextToken h) hsource (index_lt_of_nextToken h)

end Cursor

end Lexis
