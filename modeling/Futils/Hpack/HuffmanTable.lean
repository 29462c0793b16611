import Futils.Lib.BitPack
import Futils.Lib.PrefixCode
import Mathlib.Data.List.Range
import Mathlib.Tactic.Tauto

/-!
# The Huffman code of HPACK

`codes` is the code table `rfc_text` spells out, one row per byte and a last one for the end of the
string.  `decodeTree` is the tree `set_code` grows from it.
-/

namespace Futils.Hpack.Huffman

open Lib.BitPack Lib.PrefixCode CodeTree List

/-- `file::gzip::huffman::Code`: the low `bits` bits of `code` stand for `literal`. -/
structure Code where
  literal : Nat
  bits : Nat
  code : Nat
  deriving DecidableEq, Inhabited

/-- `Code::write`: the bits of the code word, most significant first. -/
def Code.write (code : Code) : List Bool :=
  if code.bits = 0 ∨ 64 < code.bits then [] else toBits code.bits code.code

/-- The rows of `rfc_text`. -/
def codes : List Code :=
  [⟨0, 13, 0x1ff8⟩, ⟨1, 23, 0x7fffd8⟩, ⟨2, 28, 0xfffffe2⟩, ⟨3, 28, 0xfffffe3⟩, ⟨4, 28, 0xfffffe4⟩,
   ⟨5, 28, 0xfffffe5⟩, ⟨6, 28, 0xfffffe6⟩, ⟨7, 28, 0xfffffe7⟩, ⟨8, 28, 0xfffffe8⟩,
   ⟨9, 24, 0xffffea⟩, ⟨10, 30, 0x3ffffffc⟩, ⟨11, 28, 0xfffffe9⟩, ⟨12, 28, 0xfffffea⟩,
   ⟨13, 30, 0x3ffffffd⟩, ⟨14, 28, 0xfffffeb⟩, ⟨15, 28, 0xfffffec⟩, ⟨16, 28, 0xfffffed⟩,
   ⟨17, 28, 0xfffffee⟩, ⟨18, 28, 0xfffffef⟩, ⟨19, 28, 0xffffff0⟩, ⟨20, 28, 0xffffff1⟩,
   ⟨21, 28, 0xffffff2⟩, ⟨22, 30, 0x3ffffffe⟩, ⟨23, 28, 0xffffff3⟩, ⟨24, 28, 0xffffff4⟩,
   ⟨25, 28, 0xffffff5⟩, ⟨26, 28, 0xffffff6⟩, ⟨27, 28, 0xffffff7⟩, ⟨28, 28, 0xffffff8⟩,
   ⟨29, 28, 0xffffff9⟩, ⟨30, 28, 0xffffffa⟩, ⟨31, 28, 0xffffffb⟩, ⟨32, 6, 0x14⟩, ⟨33, 10, 0x3f8⟩,
   ⟨34, 10, 0x3f9⟩, ⟨35, 12, 0xffa⟩, ⟨36, 13, 0x1ff9⟩, ⟨37, 6, 0x15⟩, ⟨38, 8, 0xf8⟩,
   ⟨39, 11, 0x7fa⟩, ⟨40, 10, 0x3fa⟩, ⟨41, 10, 0x3fb⟩, ⟨42, 8, 0xf9⟩, ⟨43, 11, 0x7fb⟩,
   ⟨44, 8, 0xfa⟩, ⟨45, 6, 0x16⟩, ⟨46, 6, 0x17⟩, ⟨47, 6, 0x18⟩, ⟨48, 5, 0x0⟩, ⟨49, 5, 0x1⟩,
   ⟨50, 5, 0x2⟩, ⟨51, 6, 0x19⟩, ⟨52, 6, 0x1a⟩, ⟨53, 6, 0x1b⟩, ⟨54, 6, 0x1c⟩, ⟨55, 6, 0x1d⟩,
   ⟨56, 6, 0x1e⟩, ⟨57, 6, 0x1f⟩, ⟨58, 7, 0x5c⟩, ⟨59, 8, 0xfb⟩, ⟨60, 15, 0x7ffc⟩, ⟨61, 6, 0x20⟩,
   ⟨62, 12, 0xffb⟩, ⟨63, 10, 0x3fc⟩, ⟨64, 13, 0x1ffa⟩, ⟨65, 6, 0x21⟩, ⟨66, 7, 0x5d⟩,
   ⟨67, 7, 0x5e⟩, ⟨68, 7, 0x5f⟩, ⟨69, 7, 0x60⟩, ⟨70, 7, 0x61⟩, ⟨71, 7, 0x62⟩, ⟨72, 7, 0x63⟩,
   ⟨73, 7, 0x64⟩, ⟨74, 7, 0x65⟩, ⟨75, 7, 0x66⟩, ⟨76, 7, 0x67⟩, ⟨77, 7, 0x68⟩, ⟨78, 7, 0x69⟩,
   ⟨79, 7, 0x6a⟩, ⟨80, 7, 0x6b⟩, ⟨81, 7, 0x6c⟩, ⟨82, 7, 0x6d⟩, ⟨83, 7, 0x6e⟩, ⟨84, 7, 0x6f⟩,
   ⟨85, 7, 0x70⟩, ⟨86, 7, 0x71⟩, ⟨87, 7, 0x72⟩, ⟨88, 8, 0xfc⟩, ⟨89, 7, 0x73⟩, ⟨90, 8, 0xfd⟩,
   ⟨91, 13, 0x1ffb⟩, ⟨92, 19, 0x7fff0⟩, ⟨93, 13, 0x1ffc⟩, ⟨94, 14, 0x3ffc⟩, ⟨95, 6, 0x22⟩,
   ⟨96, 15, 0x7ffd⟩, ⟨97, 5, 0x3⟩, ⟨98, 6, 0x23⟩, ⟨99, 5, 0x4⟩, ⟨100, 6, 0x24⟩, ⟨101, 5, 0x5⟩,
   ⟨102, 6, 0x25⟩, ⟨103, 6, 0x26⟩, ⟨104, 6, 0x27⟩, ⟨105, 5, 0x6⟩, ⟨106, 7, 0x74⟩, ⟨107, 7, 0x75⟩,
   ⟨108, 6, 0x28⟩, ⟨109, 6, 0x29⟩, ⟨110, 6, 0x2a⟩, ⟨111, 5, 0x7⟩, ⟨112, 6, 0x2b⟩, ⟨113, 7, 0x76⟩,
   ⟨114, 6, 0x2c⟩, ⟨115, 5, 0x8⟩, ⟨116, 5, 0x9⟩, ⟨117, 6, 0x2d⟩, ⟨118, 7, 0x77⟩, ⟨119, 7, 0x78⟩,
   ⟨120, 7, 0x79⟩, ⟨121, 7, 0x7a⟩, ⟨122, 7, 0x7b⟩, ⟨123, 15, 0x7ffe⟩, ⟨124, 11, 0x7fc⟩,
   ⟨125, 14, 0x3ffd⟩, ⟨126, 13, 0x1ffd⟩, ⟨127, 28, 0xffffffc⟩, ⟨128, 20, 0xfffe6⟩,
   ⟨129, 22, 0x3fffd2⟩, ⟨130, 20, 0xfffe7⟩, ⟨131, 20, 0xfffe8⟩, ⟨132, 22, 0x3fffd3⟩,
   ⟨133, 22, 0x3fffd4⟩, ⟨134, 22, 0x3fffd5⟩, ⟨135, 23, 0x7fffd9⟩, ⟨136, 22, 0x3fffd6⟩,
   ⟨137, 23, 0x7fffda⟩, ⟨138, 23, 0x7fffdb⟩, ⟨139, 23, 0x7fffdc⟩, ⟨140, 23, 0x7fffdd⟩,
   ⟨141, 23, 0x7fffde⟩, ⟨142, 24, 0xffffeb⟩, ⟨143, 23, 0x7fffdf⟩, ⟨144, 24, 0xffffec⟩,
   ⟨145, 24, 0xffffed⟩, ⟨146, 22, 0x3fffd7⟩, ⟨147, 23, 0x7fffe0⟩, ⟨148, 24, 0xffffee⟩,
   ⟨149, 23, 0x7fffe1⟩, ⟨150, 23, 0x7fffe2⟩, ⟨151, 23, 0x7fffe3⟩, ⟨152, 23, 0x7fffe4⟩,
   ⟨153, 21, 0x1fffdc⟩, ⟨154, 22, 0x3fffd8⟩, ⟨155, 23, 0x7fffe5⟩, ⟨156, 22, 0x3fffd9⟩,
   ⟨157, 23, 0x7fffe6⟩, ⟨158, 23, 0x7fffe7⟩, ⟨159, 24, 0xffffef⟩, ⟨160, 22, 0x3fffda⟩,
   ⟨161, 21, 0x1fffdd⟩, ⟨162, 20, 0xfffe9⟩, ⟨163, 22, 0x3fffdb⟩, ⟨164, 22, 0x3fffdc⟩,
   ⟨165, 23, 0x7fffe8⟩, ⟨166, 23, 0x7fffe9⟩, ⟨167, 21, 0x1fffde⟩, ⟨168, 23, 0x7fffea⟩,
   ⟨169, 22, 0x3fffdd⟩, ⟨170, 22, 0x3fffde⟩, ⟨171, 24, 0xfffff0⟩, ⟨172, 21, 0x1fffdf⟩,
   ⟨173, 22, 0x3fffdf⟩, ⟨174, 23, 0x7fffeb⟩, ⟨175, 23, 0x7fffec⟩, ⟨176, 21, 0x1fffe0⟩,
   ⟨177, 21, 0x1fffe1⟩, ⟨178, 22, 0x3fffe0⟩, ⟨179, 21, 0x1fffe2⟩, ⟨180, 23, 0x7fffed⟩,
   ⟨181, 22, 0x3fffe1⟩, ⟨182, 23, 0x7fffee⟩, ⟨183, 23, 0x7fffef⟩, ⟨184, 20, 0xfffea⟩,
   ⟨185, 22, 0x3fffe2⟩, ⟨186, 22, 0x3fffe3⟩, ⟨187, 22, 0x3fffe4⟩, ⟨188, 23, 0x7ffff0⟩,
   ⟨189, 22, 0x3fffe5⟩, ⟨190, 22, 0x3fffe6⟩, ⟨191, 23, 0x7ffff1⟩, ⟨192, 26, 0x3ffffe0⟩,
   ⟨193, 26, 0x3ffffe1⟩, ⟨194, 20, 0xfffeb⟩, ⟨195, 19, 0x7fff1⟩, ⟨196, 22, 0x3fffe7⟩,
   ⟨197, 23, 0x7ffff2⟩, ⟨198, 22, 0x3fffe8⟩, ⟨199, 25, 0x1ffffec⟩, ⟨200, 26, 0x3ffffe2⟩,
   ⟨201, 26, 0x3ffffe3⟩, ⟨202, 26, 0x3ffffe4⟩, ⟨203, 27, 0x7ffffde⟩, ⟨204, 27, 0x7ffffdf⟩,
   ⟨205, 26, 0x3ffffe5⟩, ⟨206, 24, 0xfffff1⟩, ⟨207, 25, 0x1ffffed⟩, ⟨208, 19, 0x7fff2⟩,
   ⟨209, 21, 0x1fffe3⟩, ⟨210, 26, 0x3ffffe6⟩, ⟨211, 27, 0x7ffffe0⟩, ⟨212, 27, 0x7ffffe1⟩,
   ⟨213, 26, 0x3ffffe7⟩, ⟨214, 27, 0x7ffffe2⟩, ⟨215, 24, 0xfffff2⟩, ⟨216, 21, 0x1fffe4⟩,
   ⟨217, 21, 0x1fffe5⟩, ⟨218, 26, 0x3ffffe8⟩, ⟨219, 26, 0x3ffffe9⟩, ⟨220, 28, 0xffffffd⟩,
   ⟨221, 27, 0x7ffffe3⟩, ⟨222, 27, 0x7ffffe4⟩, ⟨223, 27, 0x7ffffe5⟩, ⟨224, 20, 0xfffec⟩,
   ⟨225, 24, 0xfffff3⟩, ⟨226, 20, 0xfffed⟩, ⟨227, 21, 0x1fffe6⟩, ⟨228, 22, 0x3fffe9⟩,
   ⟨229, 21, 0x1fffe7⟩, ⟨230, 21, 0x1fffe8⟩, ⟨231, 23, 0x7ffff3⟩, ⟨232, 22, 0x3fffea⟩,
   ⟨233, 22, 0x3fffeb⟩, ⟨234, 25, 0x1ffffee⟩, ⟨235, 25, 0x1ffffef⟩, ⟨236, 24, 0xfffff4⟩,
   ⟨237, 24, 0xfffff5⟩, ⟨238, 26, 0x3ffffea⟩, ⟨239, 23, 0x7ffff4⟩, ⟨240, 26, 0x3ffffeb⟩,
   ⟨241, 27, 0x7ffffe6⟩, ⟨242, 26, 0x3ffffec⟩, ⟨243, 26, 0x3ffffed⟩, ⟨244, 27, 0x7ffffe7⟩,
   ⟨245, 27, 0x7ffffe8⟩, ⟨246, 27, 0x7ffffe9⟩, ⟨247, 27, 0x7ffffea⟩, ⟨248, 27, 0x7ffffeb⟩,
   ⟨249, 28, 0xffffffe⟩, ⟨250, 27, 0x7ffffec⟩, ⟨251, 27, 0x7ffffed⟩, ⟨252, 27, 0x7ffffee⟩,
   ⟨253, 27, 0x7ffffef⟩, ⟨254, 27, 0x7fffff0⟩, ⟨255, 26, 0x3ffffee⟩, ⟨256, 30, 0x3fffffff⟩]

def codeOf (symbol : Nat) : Code := codes.getD symbol default

/-- The rows in the order in which `decode_tree` sets them: the printable characters first. -/
def setCodeOrder : List Code := (codes.drop 32).take 95 ++ codes.take 32 ++ codes.drop 127

/-- The code words in the order in which they are set. -/
def codeWords : List (List Bool × Nat) := setCodeOrder.map fun code => (code.write, code.literal)

/-- `decode_tree`; a `set_code` that fails would stop the build of the source. -/
@[irreducible] def decodeTree : CodeTree Nat := (CodeTree.empty.insertAll codeWords).getD .empty

theorem insertAll_codeWords : empty.insertAll codeWords = some decodeTree := by
  have grown : (empty.insertAll codeWords).isSome := by decide +kernel
  unfold decodeTree
  generalize empty.insertAll codeWords = built at grown ⊢
  cases built with
  | none => cases grown
  | some tree => rfl

/-- Row `i` is the row of the symbol `i`. -/
theorem literals_codes : codes.map Code.literal = range 257 := by
  decide +kernel

theorem bits_codes : ∀ code ∈ codes, 0 < code.bits ∧ code.bits ≤ 64 := by
  decide +kernel

theorem getElem?_codes {symbol : Nat} (known : symbol < 257) :
    codes[symbol]? = some (codeOf symbol) ∧ (codeOf symbol).literal = symbol := by
  have row : (codes.map Code.literal)[symbol]? = some symbol := by
    rw [literals_codes, getElem?_range known]
  rw [getElem?_map] at row
  obtain ⟨code, eq, literal⟩ := Option.map_eq_some_iff.1 row
  have self : codeOf symbol = code := by rw [codeOf, getD_eq_getElem?_getD, eq, Option.getD_some]
  exact ⟨self ▸ eq, self ▸ literal⟩

theorem codeOf_mem {symbol : Nat} (known : symbol < 257) : codeOf symbol ∈ codes :=
  mem_of_getElem? (getElem?_codes known).1

theorem mem_setCodeOrder {code : Code} (member : code ∈ codes) : code ∈ setCodeOrder := by
  rw [← take_append_drop 32 codes, ← take_append_drop 95 (codes.drop 32)] at member
  simp only [setCodeOrder, mem_append] at member ⊢
  tauto

/-- The tree decodes the code word of every symbol, whatever follows it. -/
theorem walk_decodeTree {symbol : Nat} (known : symbol < 257) (rest : List Bool) :
    decodeTree.walk ((codeOf symbol).write ++ rest) = .ok (symbol, rest) := by
  have member : ((codeOf symbol).write, symbol) ∈ codeWords := by
    refine mem_map.2 ⟨codeOf _, mem_setCodeOrder (codeOf_mem known), ?_⟩
    rw [(getElem?_codes known).2]
  have decoded := walk_insertAll insertAll_codeWords rest member
  exact decoded

/-- Fewer than eight ones, the padding of a last byte, are no code word. -/
theorem walk_decodeTree_ones :
    ∀ padding < 8, decodeTree.walk (replicate padding true) = .error .outOfBits := by
  decide +kernel

theorem length_write {symbol : Nat} (known : symbol < 257) :
    (codeOf symbol).write.length = (codeOf symbol).bits := by
  have bounds := bits_codes _ (codeOf_mem known)
  rw [Code.write, if_neg (by omega), length_toBits]

theorem write_ne_nil {symbol : Nat} (known : symbol < 257) : (codeOf symbol).write ≠ [] := by
  have bounds := bits_codes _ (codeOf_mem known)
  rw [← length_pos_iff, length_write known]
  exact bounds.1

end Futils.Hpack.Huffman
