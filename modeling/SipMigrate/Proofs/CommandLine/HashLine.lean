import SipMigrate.CommandLine.Run
import SipMigrate.Proofs.CommandLine.DigestReading
import SipMigrate.Proofs.Hash.Reading

/-! Lines that hash. A text, the file of its bytes, and a number and the file of its bytes are
hashed alike, whichever way the command is spelled and in whatever parts a file is read. -/

namespace SipMigrate.CommandLine

open Text Hash Files

/-! ### Spelling a line -/

/-- An option with its value after an equals sign. -/
def spelled (long value : String) : String := "--" ++ long ++ "=" ++ value

theorem toList_spelled (long value : String) :
    (spelled long value).toList = '-' :: '-' :: (long.toList ++ '=' :: value.toList) := by
  simp [spelled]

section Options

variable {l : Level} {g : Given} {r : OptionRule} {value : String} {rest : List String}

theorem readLong_spelled (g : Given) (value : String) (hname : '=' ∉ r.long.toList)
    (hr : l.options.find? (fun o => o.long.toList = r.long.toList) = some r) :
    readLong l g (r.long.toList ++ '=' :: value.toList) =
      (g.giveValue r value).map fun g => (g, none) := by
  have hplain : ∀ c ∈ r.long.toList, (decide (c ≠ '=')) = true := by
    intro c hc
    exact decide_eq_true fun h => hname (h ▸ hc)
  have hbefore : (r.long.toList ++ '=' :: value.toList).takeWhile (· ≠ '=') = r.long.toList := by
    rw [List.takeWhile_append_of_pos hplain]
    simp
  have hafter : (r.long.toList ++ '=' :: value.toList).dropWhile (· ≠ '=') =
      '=' :: value.toList := by
    rw [List.dropWhile_append_of_pos hplain]
    simp
  simp only [readLong, hbefore, hafter, hr, String.ofList_toList]

/-- An option that is spelled with a value is given it, if it has none yet. -/
theorem read_spelled {hyphens : Bool} {accepts : String → Bool} (hsub : l.subcommands = [])
    (hname : '=' ∉ r.long.toList)
    (hr : l.options.find? (fun o => o.long.toList = r.long.toList) = some r)
    (hkind : r.kind = .value hyphens accepts) (hvalue : accepts value = true)
    (hnew : g.has r.long = false) :
    read l g none (spelled r.long value :: rest) = read l (g ++ [(r.long, value)]) none rest := by
  have hgive : g.giveValue r value = .ok (g ++ [(r.long, value)]) := by
    simp only [Given.giveValue, hkind, hvalue, Given.give, hnew]
    rfl
  have hlong := readLong_spelled g value hname hr
  rw [hgive] at hlong
  obtain ⟨c, text, htext⟩ : ∃ c text, r.long.toList ++ '=' :: value.toList = c :: text :=
    List.exists_cons_of_ne_nil (by simp)
  rw [htext] at hlong
  simp only [read, hsub, toList_spelled, htext, hlong]
  rfl

end Options

/-- The option of an input, and its value. -/
def HashInput.given : HashInput → String × String
  | text s => ("text", s)
  | file path => ("file", path)
  | number n => ("number", toString n.toInt)

def DigestFormat.name : DigestFormat → String
  | hex => "hex"
  | bytes => "bytes"
  | u64 => "u64"
  | json => "json"

/-- One way to spell a command that hashes. -/
def hashLine (key : String) (input : HashInput) (foldCase : Bool) (format : DigestFormat) :
    List String :=
  "hash" :: spelled "key" key :: spelled input.given.1 input.given.2 ::
    spelled "format" format.name :: if foldCase then ["--fold-case"] else []

theorem int64?_toString (n : Int64) : int64? (toString n.toInt) = some n := by
  have hlow := n.le_toInt
  have hhigh := n.toInt_lt
  have hrange : isInt64 n.toInt = true := by
    simp only [isInt64, Bool.and_eq_true, decide_eq_true_eq]
    omega
  simp only [int64?, integer?_toString, hrange, if_true, Int64.ofInt_toInt]

theorem lookup_name (f : DigestFormat) : digestFormats.lookup f.name = some f := by
  cases f <;> rfl

theorem read_key (key : String) (rest : List String) :
    read hashLevel [] none (spelled "key" key :: rest) =
      read hashLevel [("key", key)] none rest :=
  read_spelled (r := textOption "key" (some 'k')) rfl (by decide) rfl rfl rfl rfl

theorem read_input (key : String) {input : HashInput} (h : input ≠ .file "")
    (rest : List String) :
    read hashLevel [("key", key)] none (spelled input.given.1 input.given.2 :: rest) =
      read hashLevel [("key", key), input.given] none rest := by
  cases input with
  | text s => exact read_spelled (r := textOption "text" (some 't')) rfl (by decide) rfl rfl rfl rfl
  | file path =>
    have hpath : decide (path ≠ "") = true := decide_eq_true fun hempty => h (hempty ▸ rfl)
    exact read_spelled (r := pathOption "file" (some 'f')) rfl (by decide) rfl rfl hpath rfl
  | number n =>
    have hn : (int64? (toString n.toInt)).isSome = true := by rw [int64?_toString]; rfl
    exact read_spelled (r := ⟨"number", some 'n', .value true fun s => (int64? s).isSome⟩)
      rfl (by decide) rfl rfl hn rfl

theorem read_format (key : String) (input : HashInput) (f : DigestFormat) (rest : List String) :
    read hashLevel [("key", key), input.given] none (spelled "format" f.name :: rest) =
      read hashLevel [("key", key), input.given, ("format", f.name)] none rest := by
  have hf : (digestFormats.lookup f.name).isSome = true := by rw [lookup_name]; rfl
  have hnew : Given.has [("key", key), input.given] "format" = false := by cases input <;> rfl
  exact read_spelled
    (r := ⟨"format", none, .value false fun s => (digestFormats.lookup s).isSome⟩)
    rfl (by decide) rfl rfl hf hnew

theorem read_foldCase (key : String) (input : HashInput) (f : DigestFormat) :
    read hashLevel [("key", key), input.given, ("format", f.name)] none ["--fold-case"] =
      .ok ⟨[("key", key), input.given, ("format", f.name), ("fold-case", "")], none⟩ := by
  cases input <;> rfl

/-- What is given by a line that hashes. -/
def hashGiven (key : String) (input : HashInput) (foldCase : Bool) (format : DigestFormat) :
    Given :=
  ("key", key) :: input.given :: ("format", format.name) ::
    if foldCase then [("fold-case", "")] else []

theorem read_hashLine (key : String) {input : HashInput} (h : input ≠ .file "")
    (foldCase : Bool) (format : DigestFormat) :
    read hashLevel [] none (hashLine key input foldCase format).tail =
      .ok ⟨hashGiven key input foldCase format, none⟩ := by
  rw [hashLine, List.tail_cons, read_key, read_input key h, read_format]
  cases foldCase with
  | false => rfl
  | true => exact read_foldCase key input format

section Given

variable (key : String) (input : HashInput) (foldCase : Bool) (format : DigestFormat)

theorem lookup_format :
    (hashGiven key input foldCase format).lookup "format" = some format.name := by
  cases input <;> rfl

theorem has_foldCase : (hashGiven key input foldCase format).has "fold-case" = foldCase := by
  cases input <;> cases foldCase <;> rfl

theorem hashInput_hashGiven : hashInput (hashGiven key input foldCase format) = .ok input := by
  cases input with
  | text s => cases foldCase <;> rfl
  | file path => cases foldCase <;> rfl
  | number n =>
    have hlookup : (hashGiven key (.number n) foldCase format).lookup "number" =
        some (toString n.toInt) := rfl
    have hnumber : (hashGiven key (.number n) foldCase format).lookup "text" = none ∧
        (hashGiven key (.number n) foldCase format).lookup "file" = none := by
      cases foldCase <;> exact ⟨rfl, rfl⟩
    simp only [hashInput, hnumber, hlookup, Option.bind_some, int64?_toString]

end Given

/-- Every command that hashes is spelled by a line, unless it is to read a file without a name. -/
theorem ofArguments_hashLine (key : String) {input : HashInput} (h : input ≠ .file "")
    (foldCase : Bool) (format : DigestFormat) :
    Command.ofArguments (hashLine key input foldCase format) =
      .ok (.hash key input foldCase format) := by
  have hkey : (hashGiven key input foldCase format).required "key" = .ok key := rfl
  show readHash (hashLine key input foldCase format).tail = _
  rw [readHash, read_hashLine key h]
  simp only [bind, Except.bind, hkey, hashInput_hashGiven, lookup_format, has_foldCase,
    Option.bind_some, lookup_name]
  rfl

/-! ### Inputs -/

/-- The two's complement of a number in eight bytes, the most significant byte first. -/
def numberBytes (n : Int64) : List UInt8 :=
  (List.range 8).map fun i => UInt8.ofNat (n.toInt / 256 ^ (7 - i) % 256).toNat

/-- A number below zero is the word of its bits less `2 ^ 64`. -/
theorem toInt_cases (n : Int64) :
    n.toInt = n.toUInt64.toNat ∨ n.toInt = n.toUInt64.toNat - 18446744073709551616 := by
  have h := BitVec.toInt_eq_toNat_cond n.toBitVec
  have hnat : n.toBitVec.toNat = n.toUInt64.toNat := rfl
  rw [hnat] at h
  split at h
  · exact .inl h
  · exact .inr h

theorem bigBytes_eq_numberBytes (n : Int64) : bigBytes 8 n.toUInt64.toNat = numberBytes n := by
  have hn := toInt_cases n
  generalize n.toUInt64.toNat = m at hn
  have hreverse : (List.range 8).reverse = (List.range 8).map (7 - ·) := rfl
  rw [bigBytes, littleBytes_eq_map, ← List.map_reverse, hreverse, List.map_map, numberBytes]
  refine List.map_congr_left fun i hi => UInt8.toNat_inj.mp ?_
  simp only [Function.comp, UInt8.toNat_ofNat']
  have hi : i < 8 := List.mem_range.mp hi
  interval_cases i <;> simp only [Nat.reduceSub, Nat.reducePow, Int.reducePow] <;> omega

example : numberBytes (-2) = [0xff, 0xff, 0xff, 0xff, 0xff, 0xff, 0xff, 0xfe] ∧
    numberBytes 258 = [0, 0, 0, 0, 0, 0, 1, 2] := by decide

theorem hashInt64_eq (k : Key) (n : Int64) :
    (Hasher.ofKey k).hashInt64 n = siphash24 k (numberBytes n) := by
  rw [Hasher.hashInt64, bigBytes_eq_numberBytes]
  rfl

/-- Bytes that are read at once are the bytes that are given. -/
theorem given_data_only (b : List UInt8) : given [.data b] = .ok b := by
  by_cases hb : b = []
  · rw [hb]
    rfl
  · rw [given_data _ hb, given_nil]
    exact congrArg Except.ok (List.append_nil b)

section Files

variable {w : World} {key path : String} {k : Key} {c : Content} {foldCase : Bool}
  {format : DigestFormat} {line : List String}

/-- The bytes of a file are hashed, in whatever parts they are read. -/
theorem hashReads_of_serves (k : Key) {b : List UInt8} {reads : List ReadResult}
    (h : Serves [.data b] reads) : (Hasher.ofKey k).hashReads reads = .ok (siphash24 k b) := by
  rw [hashReads_eq, h.given_eq, given_data_only]

theorem hashFile_eq (k : Key) (hfile : w.files.find path = .ok (.file c)) :
    hashFile w (Hasher.ofKey k) path = .ok (siphash24 k c.toBytes) := by
  rw [hashFile, hfile]
  simp only [hashReads_eq, given_data_only]
  rfl

theorem runArguments_hash {input : HashInput} {d : Digest} (hkey : Key.ofHex key = .ok k)
    (hline : Command.ofArguments line = .ok (.hash key input foldCase format))
    (hd : hashOf w (Hasher.ofKey k) foldCase input = .ok d) :
    runArguments w line = ⟨0, digestText d format ++ "\n", none, w.files⟩ := by
  have hrun : runHash w key input foldCase format = .ok (digestText d format ++ "\n") := by
    rw [runHash, hkey]
    simp only [Except.mapError, bind, Except.bind, hd]
    rfl
  simp only [runArguments, hline, Command.run, Result.outcome, hrun]

end Files

/-- Under a valid key every spelling of a command that hashes a file prints the digest of its
bytes, in whatever parts these are read. A command that hashes a text without folding its case
prints the same if the file holds the UTF-8 bytes of the text, and one that hashes a number does
if the file holds the eight bytes of the number; and every such command can be spelled. What is
printed of a digest gives its number by every reading, so that the formats determine
one another. -/
theorem inputs_and_formats_agree {w : World} {key path : String} {k : Key} {c : Content}
    (hkey : Key.ofHex key = .ok k) (hfile : w.files.find path = .ok (.file c)) :
    (∀ file foldCase format,
      Command.ofArguments file = .ok (.hash key (.file path) foldCase format) →
      runArguments w file = ⟨0, digestText (siphash24 k c.toBytes) format ++ "\n", none, w.files⟩ ∧
      (∀ line t, Command.ofArguments line = .ok (.hash key (.text t) false format) →
        c.toBytes = utf8 t → runArguments w line = runArguments w file) ∧
      ∀ line n fold, Command.ofArguments line = .ok (.hash key (.number n) fold format) →
        c.toBytes = numberBytes n → runArguments w line = runArguments w file) ∧
    (∀ reads, Serves [.data c.toBytes] reads →
      (Hasher.ofKey k).hashReads reads = .ok (siphash24 k c.toBytes)) ∧
    (∀ input foldCase format, input ≠ .file "" →
      Command.ofArguments (hashLine key input foldCase format) =
        .ok (.hash key input foldCase format)) ∧
    ∀ d : Digest,
      (∀ r : DigestReading, r.read? (digestText d r.format) = some d.value.toNat) ∧
      ∀ (d' : Digest) (f g : DigestFormat),
        digestText d f = digestText d' f → digestText d g = digestText d' g := by
  refine ⟨fun file foldCase format hline => ?_, fun reads h => hashReads_of_serves k h,
    fun input foldCase format h => ofArguments_hashLine key h foldCase format,
    fun d => ⟨fun r => r.read?_digestText d, fun d' f g h => ?_⟩⟩
  · have hprinted := runArguments_hash hkey hline (hashFile_eq k hfile)
    refine ⟨hprinted, fun line t hline h => ?_, fun line n fold hline h => ?_⟩
    · rw [hprinted, h]
      exact runArguments_hash hkey hline rfl
    · rw [hprinted, h, ← hashInt64_eq]
      exact runArguments_hash hkey hline rfl
  · rw [digestText_injective f h]

/-- The key of the bytes from zero to fifteen. -/
def countingKey : Key := ⟨(List.range 16).map UInt8.ofNat, rfl⟩

/-- A directory with one file, of eight letters. -/
def lettersWorld : World where
  files := ⟨[(["letters"], .file (.bytes (utf8 "abcdefgh")))]⟩
  completedAt _ := 0
  freshKey := countingKey
  recover _ := .discard

/-- Eight letters as a text, in a file and as a number. -/
theorem inputs_and_formats_agree_of_letters :
    let file := runArguments lettersWorld
      ["hash", "-k", "000102030405060708090a0b0c0d0e0f", "-f", "letters"]
    file.exit = 0 ∧
      runArguments lettersWorld
        ["hash", "-tabcdefgh", "--key=000102030405060708090a0b0c0d0e0f"] = file ∧
      runArguments lettersWorld
        ["hash", "--number", "7017280452245743464", "-k", "000102030405060708090a0b0c0d0e0f"] =
        file := by
  have hkey : Key.ofHex "000102030405060708090a0b0c0d0e0f" = .ok countingKey := by decide +kernel
  have hfile : lettersWorld.files.find "letters" = .ok (.file (.bytes (utf8 "abcdefgh"))) := by
    rfl
  obtain ⟨hprints, -⟩ := inputs_and_formats_agree hkey hfile
  obtain ⟨hprinted, htext, hnumber⟩ := hprints
    ["hash", "-k", "000102030405060708090a0b0c0d0e0f", "-f", "letters"] false .hex
    (by decide +kernel)
  refine ⟨?_, htext _ "abcdefgh" (by decide +kernel) rfl,
    hnumber _ 7017280452245743464 false (by decide +kernel) (by decide +kernel)⟩
  rw [hprinted]

end SipMigrate.CommandLine
