import Mathlib
import RehashReport.Image.Png

/-!
# Pictures and their files

Painting keeps the size of a raster (`Raster.HasSize`), and the PNG file of a raster tells it
(`size?_encode`).

What a PNG file holds is said by a reader that goes through it from front to back and gives up where
anything is wrong: chunks with their checksums, a stream of stored blocks with its own, and rows of
pixels (`Png.decode?`).  It reads the very picture back that was written (`decode?_encode`).
-/

namespace RehashReport.Image

/-! ## Painting -/

namespace Raster

/-- A raster with a width and a height, and a pixel for each place. -/
structure HasSize (r : Raster) (width height : ℕ) : Prop where
  width_eq : r.width = width
  height_eq : r.height = height
  size_pixels : r.pixels.size = width * height

variable {r : Raster} {width height : ℕ}

theorem filled_hasSize (width height : ℕ) (colour : Colour) :
    (filled width height colour).HasSize width height :=
  ⟨rfl, rfl, Array.size_replicate⟩

theorem size_changeRun (change : ℕ → Colour → Colour) (pixels : Array Colour) (start n : ℕ) :
    (changeRun change pixels start n).size = pixels.size := by
  induction n generalizing pixels start with
  | zero => rfl
  | succ n ih => rw [changeRun, ih, Array.size_modify]

theorem size_changeRows (change : ℕ → Colour → Colour) (width left across : ℕ)
    (pixels : Array Colour) (top n : ℕ) :
    (changeRows change width left across pixels top n).size = pixels.size := by
  induction n generalizing pixels top with
  | zero => rfl
  | succ n ih => rw [changeRows, ih, size_changeRun]

/-- Changing pixels keeps the size. -/
theorem HasSize.changeWithin (h : r.HasSize width height) (change : ℕ → ℕ → Colour → Colour)
    (left top right bottom : ℤ) :
    (r.changeWithin change left top right bottom).HasSize width height :=
  ⟨h.width_eq, h.height_eq, (size_changeRows ..).trans h.size_pixels⟩

theorem HasSize.fill (h : r.HasSize width height) (colour : Colour)
    (left top right bottom : ℤ) : (r.fill colour left top right bottom).HasSize width height :=
  h.changeWithin ..

theorem HasSize.cover (h : r.HasSize width height) (colour : Colour) (opacity : ℕ)
    (left top right bottom : ℤ) :
    (r.cover colour opacity left top right bottom).HasSize width height :=
  h.changeWithin ..

/-- Painting one thing after the other keeps the size if painting each of them does. -/
theorem HasSize.foldl {α : Type} {paint : Raster → α → Raster}
    (hpaint : ∀ r x, r.HasSize width height → (paint r x).HasSize width height) (xs : List α)
    (h : r.HasSize width height) : (xs.foldl paint r).HasSize width height := by
  induction xs generalizing r with
  | nil => exact h
  | cons x xs ih => exact ih (hpaint r x h)

theorem HasSize.length_rows (h : r.HasSize width height) : r.rows.length = height := by
  rw [rows, List.length_map, List.length_range, h.height_eq]

theorem HasSize.length_of_mem_rows (h : r.HasSize width height) {row : List Colour}
    (hrow : row ∈ r.rows) : row.length = width := by
  obtain ⟨y, hy, rfl⟩ := List.mem_map.1 hrow
  rw [List.mem_range, h.height_eq] at hy
  have hend : (y + 1) * width ≤ width * height := by
    rw [mul_comm width]
    exact Nat.mul_le_mul_right width hy
  rw [Array.length_toList, Array.size_extract, h.width_eq, h.size_pixels, min_eq_left hend,
    ← Nat.sub_mul, Nat.add_sub_cancel_left, one_mul]

end Raster

/-! ## The front of a file -/

namespace Png

/-- A number below `2 ^ 32` is read back from its four bytes. -/
theorem ofWord_word {n : ℕ} (h : n < 2 ^ 32) :
    ofWord (.ofNat (n / 0x1000000)) (.ofNat (n / 0x10000)) (.ofNat (n / 0x100)) (.ofNat n) = n := by
  simp only [ofWord, UInt8.toNat_ofNat']
  omega

/-- The file of a picture starts with the signature and gives the size of the picture. -/
theorem size?_encode {r : Raster} (hwidth : r.width < 2 ^ 32) (hheight : r.height < 2 ^ 32) :
    size? (encode r) = some (r.width, r.height) := by
  have hprefix : signature.isPrefixOf (encode r) = true := by
    rw [List.isPrefixOf_iff_prefix]
    exact List.prefix_append _ _
  rw [size?, if_pos hprefix]
  show some (ofWord (.ofNat (r.width / 0x1000000)) (.ofNat (r.width / 0x10000))
      (.ofNat (r.width / 0x100)) (.ofNat r.width),
    ofWord (.ofNat (r.height / 0x1000000)) (.ofNat (r.height / 0x10000))
      (.ofNat (r.height / 0x100)) (.ofNat r.height)) = _
  rw [ofWord_word hwidth, ofWord_word hheight]

/-! ## A reader -/

/-- Takes so many bytes off the front. -/
def takeBytes? (n : ℕ) (bytes : List UInt8) : Option (List UInt8 × List UInt8) :=
  if n ≤ bytes.length then some (bytes.take n, bytes.drop n) else none

/-- Takes a number of four bytes off the front. -/
def takeWord? : List UInt8 → Option (ℕ × List UInt8)
  | a :: b :: c :: d :: rest => some (ofWord a b c d, rest)
  | _ => none

/-- Takes a length off the front, which has 31 bits. -/
def takeLength? (bytes : List UInt8) : Option (ℕ × List UInt8) :=
  (takeWord? bytes).filter fun (n, _) => n < 2 ^ 31

/-- What a chunk is for, and its data. -/
structure Chunk where
  type : List UInt8
  data : List UInt8

/-- Takes a chunk off the front: the length of its data, its type, the data and a checksum. -/
def takeChunk? (bytes : List UInt8) : Option (Chunk × List UInt8) := do
  let (length, bytes) ← takeLength? bytes
  let (type, bytes) ← takeBytes? 4 bytes
  let (data, bytes) ← takeBytes? length bytes
  let (check, bytes) ← takeWord? bytes
  if check = (crc32 (type ++ data)).toNat then some (⟨type, data⟩, bytes) else none

theorem length_lt_of_takeWord? {bytes rest : List UInt8} {n : ℕ}
    (h : takeWord? bytes = some (n, rest)) : rest.length < bytes.length := by
  rw [takeWord?.eq_def] at h
  split at h
  · cases h
    simp only [List.length_cons]
    omega
  · cases h

theorem length_le_of_takeBytes? {n : ℕ} {bytes front rest : List UInt8}
    (h : takeBytes? n bytes = some (front, rest)) : rest.length ≤ bytes.length := by
  rw [takeBytes?] at h
  split_ifs at h
  cases h
  rw [List.length_drop]
  omega

/-- A chunk is no empty thing. -/
theorem length_lt_of_takeChunk? {bytes rest : List UInt8} {c : Chunk}
    (h : takeChunk? bytes = some (c, rest)) : rest.length < bytes.length := by
  simp only [takeChunk?, Option.bind_eq_bind, Option.bind_eq_some_iff] at h
  obtain ⟨⟨n, afterLength⟩, hlength, ⟨type, afterType⟩, htype, ⟨data, afterData⟩, hdata,
    ⟨check, afterCheck⟩, hcheck, hrest⟩ := h
  have hword := length_lt_of_takeWord? (Option.filter_eq_some_iff.1 hlength).1
  have h4 := length_le_of_takeBytes? htype
  have hn := length_le_of_takeBytes? hdata
  have hlast := length_lt_of_takeWord? hcheck
  dsimp only at hrest h4 hn hlast
  split_ifs at hrest
  cases hrest
  omega

/-- The chunks of a file, down to the one that ends it. -/
def chunks? (bytes : List UInt8) : Option (List Chunk) :=
  match _h : takeChunk? bytes with
  | none => none
  | some (c, rest) =>
    if c.type = endType then if rest = [] then some [c] else none
    else (chunks? rest).map (c :: ·)
termination_by bytes.length
decreasing_by exact length_lt_of_takeChunk? _h

/-- Takes stored blocks off the front, down to the last of them: whether it is the last, the number
of its bytes, the same inverted, and the bytes. -/
def takeBlocks? : List UInt8 → Option (List UInt8 × List UInt8)
  | last :: a :: b :: c :: d :: bytes =>
    let n := a.toNat + 256 * b.toNat
    if 1 < last ∨ a ^^^ c ≠ 0xFF ∨ b ^^^ d ≠ 0xFF ∨ bytes.length < n then none
    else if last = 1 then some (bytes.take n, bytes.drop n)
    else (takeBlocks? (bytes.drop n)).map fun (more, rest) => (bytes.take n ++ more, rest)
  | _ => none
termination_by bytes => bytes.length
decreasing_by
  simp only [List.length_drop, List.length_cons]
  omega

/-- The bytes of a stream, which names its method first, tells that there is no dictionary, and ends
with a checksum. -/
def inflate? : List UInt8 → Option (List UInt8)
  | method :: flags :: bytes => do
    let (data, bytes) ← takeBlocks? bytes
    let (check, bytes) ← takeWord? bytes
    if method % 16 = 8 ∧ (method.toNat * 256 + flags.toNat) % 31 = 0 ∧ flags &&& 0x20 = 0 ∧
      check = (adler32 data).toNat ∧ bytes = [] then some data else none
  | _ => none

/-- The colours of a row, of three bytes each. -/
def colours? : List UInt8 → Option (List Colour)
  | [] => some []
  | red :: green :: blue :: bytes => (colours? bytes).map (⟨red, green, blue⟩ :: ·)
  | _ => none

/-- The rows of a picture of a width and a height, each after the number of its filter. The only
filter that is known is none. -/
def rows? (width : ℕ) : ℕ → List UInt8 → Option (List (List Colour))
  | 0, bytes => if bytes = [] then some [] else none
  | height + 1, bytes => do
    let (filter, bytes) ← takeBytes? 1 bytes
    let (line, bytes) ← takeBytes? (3 * width) bytes
    let row ← colours? line
    let rows ← rows? width height bytes
    if filter = [0] then some (row :: rows) else none

/-- A picture by its size and its rows, from above. -/
structure Picture where
  width : ℕ
  height : ℕ
  rows : List (List Colour)

/-- The width and height that a header gives, if neither is zero and if colours have three parts of
eight bits. -/
def headerSize? (data : List UInt8) : Option (ℕ × ℕ) := do
  let (width, data) ← takeLength? data
  let (height, data) ← takeLength? data
  if 0 < width ∧ 0 < height ∧ data = [8, 2, 0, 0, 0] then some (width, height) else none

/-- The picture of a file: the signature, a header, and chunks of which some hold image data. -/
def decode? (file : List UInt8) : Option Picture := do
  let (front, bytes) ← takeBytes? 8 file
  match ← chunks? bytes with
  | [] => none
  | header :: chunks =>
    let (width, height) ← headerSize? header.data
    let data ← inflate? ((chunks.filter fun c => c.type = dataType).flatMap Chunk.data)
    let rows ← rows? width height data
    if front = signature ∧ header.type = headerType then some ⟨width, height, rows⟩ else none

/-! ## Reading back -/

section

variable {bytes : List UInt8}

theorem takeBytes?_append {n : ℕ} (h : bytes.length = n) (rest : List UInt8) :
    takeBytes? n (bytes ++ rest) = some (bytes, rest) := by
  subst h
  simp [takeBytes?]

theorem takeWord?_word {n : ℕ} (h : n < 2 ^ 32) (rest : List UInt8) :
    takeWord? (word n ++ rest) = some (n, rest) := by
  simp only [word, List.cons_append, List.nil_append, takeWord?, ofWord_word h]

theorem takeLength?_word {n : ℕ} (h : n < 2 ^ 31) (rest : List UInt8) :
    takeLength? (word n ++ rest) = some (n, rest) := by
  rw [takeLength?, takeWord?_word (by omega), Option.filter_some, if_pos (decide_eq_true h)]

theorem takeWord?_toNat (n : UInt32) (rest : List UInt8) :
    takeWord? (word n.toNat ++ rest) = some (n.toNat, rest) :=
  takeWord?_word n.toNat_lt rest

/-- A chunk is read back. -/
theorem takeChunk?_chunk {type data : List UInt8} (htype : type.length = 4)
    (hdata : data.length < 2 ^ 31) (rest : List UInt8) :
    takeChunk? (chunk type data ++ rest) = some (⟨type, data⟩, rest) := by
  simp only [takeChunk?, chunk, List.append_assoc, takeLength?_word hdata,
    takeBytes?_append htype, takeBytes?_append (rfl : data.length = data.length), takeWord?_toNat,
    Option.bind_eq_bind, Option.bind_some, if_pos]

theorem chunks?_chunk {type data : List UInt8} (htype : type.length = 4) (hne : type ≠ endType)
    (hdata : data.length < 2 ^ 31) (rest : List UInt8) :
    chunks? (chunk type data ++ rest) = (chunks? rest).map (⟨type, data⟩ :: ·) := by
  have hchunk := takeChunk?_chunk htype hdata rest
  rw [chunks?]
  split
  next h => rw [hchunk] at h; cases h
  next h =>
    rw [hchunk] at h
    cases h
    rw [if_neg hne]

theorem chunks?_end : chunks? (chunk endType []) = some [⟨endType, []⟩] := by
  have hchunk : takeChunk? (chunk endType [] ++ []) = some (⟨endType, []⟩, []) :=
    takeChunk?_chunk rfl (by decide) []
  rw [List.append_nil] at hchunk
  rw [chunks?]
  split
  next h => rw [hchunk] at h; cases h
  next h =>
    rw [hchunk] at h
    cases h
    rfl

example : chunk endType [] =
    [0x00, 0x00, 0x00, 0x00, 0x49, 0x45, 0x4E, 0x44, 0xAE, 0x42, 0x60, 0x82] := by decide +kernel

/-- A block is read back, and then those after it if it is not the last. -/
theorem takeBlocks?_block {block : List UInt8} (h : block.length ≤ blockLimit) (isLast : Bool)
    (rest : List UInt8) :
    takeBlocks? ((if isLast then 1 else 0) :: .ofNat block.length ::
        .ofNat (block.length / 256) :: (.ofNat block.length ^^^ 0xFF) ::
        (.ofNat (block.length / 256) ^^^ 0xFF) :: (block ++ rest)) =
      if isLast then some (block, rest)
      else (takeBlocks? rest).map fun (more, after) => (block ++ more, after) := by
  have hinverse : ∀ b : UInt8, b ^^^ (b ^^^ 0xFF) = 0xFF := fun b => by
    rw [← UInt8.xor_assoc, UInt8.xor_self, UInt8.zero_xor]
  have hsize : (UInt8.ofNat block.length).toNat + 256 * (UInt8.ofNat (block.length / 256)).toNat =
      block.length := by
    rw [blockLimit] at h
    simp only [UInt8.toNat_ofNat']
    omega
  have hshort : ¬(block ++ rest).length < block.length := by simp
  rw [takeBlocks?]
  simp only [hsize, hinverse, hshort, List.take_left, List.drop_left, ne_eq, not_true, or_false]
  cases isLast <;> rfl

/-- Stored blocks are read back, if there are enough of them. -/
theorem takeBlocks?_blocks {fuel : ℕ} (h : bytes.length / blockLimit < fuel) (rest : List UInt8) :
    takeBlocks? (blocks fuel bytes ++ rest) = some (bytes, rest) := by
  induction fuel generalizing bytes with
  | zero => exact absurd h (Nat.not_lt_zero _)
  | succ fuel ih =>
    have hlength : (bytes.take blockLimit).length ≤ blockLimit := List.length_take_le _ _
    have hblock := takeBlocks?_block hlength (bytes.drop blockLimit).isEmpty
    by_cases hlast : bytes.drop blockLimit = []
    · have hall := List.take_of_length_le (List.drop_eq_nil_iff.1 hlast)
      rw [hlast, List.isEmpty_nil, hall] at hblock
      simp only [blocks, hlast, hall, List.isEmpty_nil, if_true, List.append_nil, List.map_cons,
        List.map_nil, List.cons_append, List.nil_append]
      exact hblock rest
    · have hempty : (bytes.drop blockLimit).isEmpty = false := by simpa using hlast
      have hfuel : (bytes.drop blockLimit).length / blockLimit < fuel := by
        have hmore : blockLimit < bytes.length := by simpa using hlast
        rw [List.length_drop]
        unfold blockLimit at h hmore ⊢
        omega
      rw [hempty] at hblock
      simp only [blocks, hempty, List.map_cons, List.map_nil, List.append_assoc, List.cons_append,
        List.nil_append]
      refine (hblock _).trans ?_
      simp only [Bool.false_eq_true, if_false, ih hfuel, Option.map_some, List.take_append_drop]

/-- A stream is read if its front is good, if its blocks are read, and if its checksum is all that
comes after them. -/
theorem inflate?_of_blocks {method flags : UInt8} {stream data check : List UInt8}
    (hmethod : method % 16 = 8) (hfront : (method.toNat * 256 + flags.toNat) % 31 = 0)
    (hflags : flags &&& 0x20 = 0) (hblocks : takeBlocks? stream = some (data, check))
    (hcheck : takeWord? check = some ((adler32 data).toNat, [])) :
    inflate? (method :: flags :: stream) = some data := by
  simp only [inflate?, hblocks, hcheck, Option.bind_eq_bind, Option.bind_some]
  exact if_pos ⟨hmethod, hfront, hflags, trivial, trivial⟩

/-- A stream is read back. -/
theorem inflate?_stored (bytes : List UInt8) : inflate? (stored bytes) = some bytes := by
  have hcheck := takeWord?_toNat (adler32 bytes) []
  rw [List.append_nil] at hcheck
  rw [stored, List.append_assoc, List.cons_append, List.cons_append, List.nil_append]
  exact inflate?_of_blocks (by decide) (by decide) (by decide)
    (takeBlocks?_blocks (Nat.lt_succ_self _) _) hcheck

theorem colours?_flatMap (row : List Colour) :
    colours? (row.flatMap fun c => [c.red, c.green, c.blue]) = some row := by
  induction row with
  | nil => rfl
  | cons c row ih =>
    rw [List.flatMap_cons]
    simp only [List.cons_append, List.nil_append, colours?, ih, Option.map_some]

/-- Rows of one length are read back. -/
theorem rows?_flatten {width : ℕ} {rows : List (List Colour)}
    (h : ∀ row ∈ rows, row.length = width) :
    rows? width rows.length
        (rows.map fun row => 0 :: row.flatMap fun c => [c.red, c.green, c.blue]).flatten =
      some rows := by
  induction rows with
  | nil => rfl
  | cons row rows ih =>
    have hrest := ih fun x hx => h x (List.mem_cons_of_mem row hx)
    have hline : (row.flatMap fun c => [c.red, c.green, c.blue]).length = 3 * width := by
      rw [List.length_flatMap, ← h row List.mem_cons_self]
      simp [mul_comm]
    have hfilter : ∀ rest : List UInt8, takeBytes? 1 (0 :: rest) = some ([0], rest) :=
      fun rest => takeBytes?_append (rfl : [(0 : UInt8)].length = 1) rest
    simp only [List.map_cons, List.flatten_cons, List.length_cons, rows?, List.cons_append, hfilter,
      takeBytes?_append hline, colours?_flatMap, hrest, Option.bind_eq_bind, Option.bind_some,
      if_true]

end

theorem headerSize?_header {r : Raster} (hwidth : 0 < r.width ∧ r.width < 2 ^ 31)
    (hheight : 0 < r.height ∧ r.height < 2 ^ 31) :
    headerSize? (header r) = some (r.width, r.height) := by
  simp only [headerSize?, header, List.append_assoc, takeLength?_word hwidth.2,
    takeLength?_word hheight.2, Option.bind_eq_bind, Option.bind_some]
  exact if_pos ⟨hwidth.1, hheight.1, trivial⟩

/-! ## Lengths -/

theorem length_blocks_le (fuel : ℕ) (bytes : List UInt8) :
    (blocks fuel bytes).length ≤ bytes.length + 5 * fuel := by
  induction fuel generalizing bytes with
  | zero => exact Nat.zero_le _
  | succ fuel ih =>
    have hrest := ih (bytes.drop blockLimit)
    have htake : (bytes.take blockLimit).length + (bytes.drop blockLimit).length =
        bytes.length := by
      rw [← List.length_append, List.take_append_drop]
    simp only [blocks, List.length_append, List.length_cons, List.length_map, List.length_nil]
    split_ifs
    · rw [List.length_nil]
      omega
    · omega

theorem length_stored_lt {bytes : List UInt8} (h : bytes.length < 2 ^ 30) :
    (stored bytes).length < 2 ^ 31 := by
  have hblocks := length_blocks_le (bytes.length / blockLimit + 1) bytes
  simp only [stored, List.length_append, List.length_cons, List.length_nil, word]
  unfold blockLimit at hblocks ⊢
  omega

theorem length_scanlines {r : Raster} {width height : ℕ} (h : r.HasSize width height) :
    (scanlines r).length = height * (1 + 3 * width) := by
  have hline : ∀ n ∈ (r.rows.map fun row =>
      0 :: row.flatMap fun c => [c.red, c.green, c.blue]).map List.length, n = 1 + 3 * width := by
    intro n hn
    rw [List.map_map] at hn
    obtain ⟨row, hrow, rfl⟩ := List.mem_map.1 hn
    rw [Function.comp_apply, List.length_cons, List.length_flatMap, ← h.length_of_mem_rows hrow]
    simp
    omega
  rw [scanlines, List.length_flatten, List.sum_eq_card_nsmul _ _ hline, List.length_map,
    List.length_map, h.length_rows, smul_eq_mul]

/-! ## Files -/

/-- **The file of a picture is read back as that picture.** -/
theorem decode?_encode {r : Raster} {width height : ℕ} (h : r.HasSize width height)
    (hwidth : 0 < width) (hheight : 0 < height) (hsize : height * (1 + 3 * width) < 2 ^ 30) :
    decode? (encode r) = some ⟨width, height, r.rows⟩ := by
  have hrows := rows?_flatten fun row => h.length_of_mem_rows
  rw [h.length_rows, ← scanlines] at hrows
  have hline : 1 + 3 * width ≤ height * (1 + 3 * width) := Nat.le_mul_of_pos_left _ hheight
  have hcolumn : height ≤ height * (1 + 3 * width) := Nat.le_mul_of_pos_right _ (by omega)
  have hheader : headerSize? (header r) = some (r.width, r.height) :=
    headerSize?_header (by rw [h.width_eq]; omega) (by rw [h.height_eq]; omega)
  have hstored := length_stored_lt ((length_scanlines h).trans_lt hsize)
  have hchunks : chunks? (chunk headerType (header r) ++
      (chunk dataType (stored (scanlines r)) ++ chunk endType [])) =
        some [⟨headerType, header r⟩, ⟨dataType, stored (scanlines r)⟩, ⟨endType, []⟩] := by
    rw [chunks?_chunk rfl (by decide) (by simp [header, word]),
      chunks?_chunk rfl (by decide) hstored, chunks?_end]
    rfl
  have hdata : ([⟨dataType, stored (scanlines r)⟩, ⟨endType, []⟩] : List Chunk).filter
      (fun c => c.type = dataType) = [⟨dataType, stored (scanlines r)⟩] := by
    rw [List.filter_cons_of_pos (by simp), List.filter_cons_of_neg (by decide), List.filter_nil]
  have hfront : ∀ rest, takeBytes? 8 (signature ++ rest) = some (signature, rest) :=
    takeBytes?_append rfl
  simp only [decode?, encode, hfront, hchunks, hheader, hdata, List.flatMap_cons, List.flatMap_nil,
    List.append_nil, inflate?_stored, h.width_eq, h.height_eq, hrows, Option.bind_eq_bind,
    Option.bind_some, and_self, if_true]

end Png

end RehashReport.Image
