import SchemaMigration.Proofs.SourceUrl
import SchemaMigration.Proofs.Url.Host

/-!
# Source URLs with a host

A source URL with a host is meant to name a directory seen from the working directory. Its path is
taken as it is written, though, where that of a URL without a host is decoded: so the two forms name
directories alike only where no byte of a name has to be escaped, and a drive behind the host makes
the directory an absolute one.

* `Url.HostPath`: the directories in question.
* `Source.directoryOfUrl_absolute`, `Source.directoryOfUrl_relative`, `Source.directoryOfUrl_drive`:
  what each form names.
* `Source.directoryOfUrl_host`: where the two forms agree.
-/

namespace SchemaMigration

namespace Url

/-- A name as it is written in a URL, taken for a name. -/
def asWritten (name : Bytes) : Bytes :=
  (encodeName name).flatMap String.utf8EncodeChar

theorem isName_asWritten {name : Bytes} (isName : Path.IsName name) :
    Path.IsName (asWritten name) where
  nonempty empty := by
    have decoded := decode_encodeName name
    rw [← asWritten, empty, Percent.decode] at decoded
    exact isName.nonempty decoded.symm
  notDot dot := by
    have decoded := decode_encodeName name
    rw [← asWritten, dot] at decoded
    exact isName.notDot (decoded.symm.trans (by decide +kernel))
  whole mem := by
    obtain ⟨c, mem, within⟩ := List.mem_flatMap.mp mem
    cases Path.eq_of_separator_mem within
    exact (segmentChar_of_mem_encodeName mem).ne.1 rfl

theorem utf8_trailing (names : List Bytes) :
    (trailing names).flatMap String.utf8EncodeChar =
      (names.map asWritten).flatMap (· ++ [Path.separator]) := by
  induction names with
  | nil => rfl
  | cons name names ih =>
      rw [trailing_cons, List.flatMap_append, List.flatMap_cons, ih, List.map_cons,
        List.flatMap_cons, List.append_assoc]
      rfl

/-- The parts of a directory that a URL can name with its first name as the host: the host is made
of lower-case letters and is no name for the machine itself, and no name behind it leads up. -/
structure HostPath (host : List Char) (names : List Bytes) : Prop where
  nonempty : host ≠ []
  lower : ∀ c ∈ host, c.isLower = true
  notLocal : String.ofList host ≠ "localhost"
  isName : ∀ name ∈ names, Path.IsName name
  notUp : ∀ name ∈ names, name ≠ Path.dotDot

namespace HostPath

variable {host : List Char} {names : List Bytes} (parts : HostPath host names)
include parts

theorem isName_host : Path.IsName (Bytes.ofString (String.ofList host)) where
  nonempty empty := by
    have encoded := encodeName_letters parts.lower
    rw [empty] at encoded
    exact parts.nonempty encoded.symm
  notDot dot := by
    have encoded := encodeName_letters parts.lower
    rw [dot] at encoded
    exact absurd (parts.lower '.' (encoded ▸ List.mem_cons_self)) (by decide)
  whole mem := by
    rw [Bytes.ofString_ofList] at mem
    obtain ⟨c, mem, within⟩ := List.mem_flatMap.mp mem
    cases Path.eq_of_separator_mem within
    exact absurd (parts.lower '/' mem) (by decide)

theorem isName_all {name : Bytes} (mem : name ∈ Bytes.ofString (String.ofList host) :: names) :
    Path.IsName name := by
  obtain rfl | mem := List.mem_cons.mp mem
  · exact parts.isName_host
  · exact parts.isName name mem

theorem notUp_all {name : Bytes} (mem : name ∈ Bytes.ofString (String.ofList host) :: names) :
    name ≠ Path.dotDot := by
  obtain rfl | mem := List.mem_cons.mp mem
  · intro up
    have encoded := encodeName_letters parts.lower
    rw [up] at encoded
    exact absurd (parts.lower '.' (encoded ▸ List.mem_cons_self)) (by decide)
  · exact parts.notUp name mem

theorem driveFree_all : DriveFree [] (Bytes.ofString (String.ofList host) :: names) := by
  refine driveFree_of_not_dotDot (fun _ mem => parts.notUp_all mem) fun _ first head => ?_
  cases head
  refine Bool.eq_false_iff.mpr fun drive => ?_
  have written := isDrive_encodeName_drive drive
  rw [encodeName_letters parts.lower, isDrive_letters parts.lower] at written
  cases written

end HostPath

end Url

/-! ## The directories -/

namespace Source

theorem directoryOfUrl_absolute {host : List Char} {names : List Bytes}
    (parts : Url.HostPath host names) :
    directoryOfUrl ("file:///" ++ String.ofList (host ++ Url.directoryPath names)) =
      .ok ⟨Path.separator :: (Bytes.ofString (String.ofList host) :: names).flatMap
          (· ++ [Path.separator])⟩ := by
  have written : "file:///" ++ String.ofList (host ++ Url.directoryPath names) =
      "file://" ++ String.ofList
          (Url.directoryPath (Bytes.ofString (String.ofList host) :: names)) := by
    have lead : "file:///" = "file://" ++ String.ofList ['/'] := by decide
    rw [lead, String.append_assoc, ← String.ofList_append, Url.directoryPath, Url.directoryPath,
      Url.trailing_cons, Url.encodeName_letters parts.lower]
    rfl
  rw [written, directoryOfUrl_directoryPath (fun _ mem => parts.isName_all mem) parts.driveFree_all,
    Path.lexical_of_not_dotDot fun _ mem => parts.notUp_all mem]

/-- Without a drive behind the host, a URL with a host names a directory through the names as they
are written. -/
theorem directoryOfUrl_relative {host : List Char} {names : List Bytes}
    (parts : Url.HostPath host names)
    (noDrive : ∀ first ∈ names.head?, Url.isDriveName first = false) :
    Source.directoryOfUrl ("file://" ++ String.ofList (host ++ Url.directoryPath names)) =
      .ok ⟨Bytes.ofString (String.ofList host) ++ Path.separator ::
          (names.map Url.asWritten).flatMap (· ++ [Path.separator])⟩ := by
  have driveFree : Url.DriveFree [] names :=
    Url.driveFree_of_not_dotDot parts.notUp fun _ => noDrive
  have noLead := Url.leadsWithDrive_trailing parts.isName driveFree
  rw [directoryOfUrl, Url.read_letters parts.nonempty parts.lower parts.notLocal, noLead,
    Url.readPath_trailing parts.isName driveFree, Path.lexical_of_not_dotDot parts.notUp]
  refine congrArg (fun bytes : Bytes => Except.ok (Path.mk bytes)) ?_
  rw [← Url.utf8_trailing, Bytes.ofString_append, Bytes.ofString_ofList (Url.directoryPath names)]
  rfl

/-- A drive behind the host takes the host away. -/
theorem directoryOfUrl_drive {host : List Char} {names : List Bytes} {first : Bytes}
    (parts : Url.HostPath host names) (head : names.head? = some first)
    (drive : Url.isDriveName first = true) :
    ∃ path,
      directoryOfUrl ("file://" ++ String.ofList (host ++ Url.directoryPath names)) = .ok path ∧
        path.isAbsolute = true := by
  have lead := Url.leadsWithDrive_of_head head drive
  rw [directoryOfUrl, Url.read_letters parts.nonempty parts.lower parts.notLocal, lead]
  refine ⟨_, rfl, Path.isAbsolute_iff.mpr ?_⟩
  rw [Url.filePath, Url.readPath, Bytes.ofString_ofList]
  have slash : ∀ cs : List Char, ∃ rest,
      Percent.decode (('/' :: cs).flatMap String.utf8EncodeChar) = Path.separator :: rest :=
    fun cs => ⟨_, Url.decode_slash _⟩
  obtain ⟨rest, decoded⟩ := slash
    ((Url.addSegments ['/'] (Form.splitOn Url.isSlash
      ((Url.trailing names).takeWhile fun c => c ≠ '?' ∧ c ≠ '#'))).dropWhile (· = '/'))
  simp only [decoded]
  split_ifs
  · exact ⟨_, rfl⟩
  · exact ⟨_, rfl⟩

/-- The path through a host and names as they are written, and when it is that through the names
themselves. -/
theorem names_relative {host : List Char} {names : List Bytes} (parts : Url.HostPath host names) :
    let hostName := Bytes.ofString (String.ofList host)
    let path : Path := ⟨hostName ++ Path.separator ::
      (names.map Url.asWritten).flatMap (· ++ [Path.separator])⟩
    path.isAbsolute = false ∧ path.names = hostName :: names.map Url.asWritten ∧
      (path.names = hostName :: names ↔
        ∀ name ∈ names, ∀ byte ∈ name, Percent.segment byte = false) := by
  intro hostName path
  have isName : ∀ name ∈ names.map Url.asWritten, Path.IsName name := fun name mem => by
    obtain ⟨written, among, rfl⟩ := List.mem_map.mp mem
    exact Url.isName_asWritten (parts.isName written among)
  have pathNames : path.names = hostName :: names.map Url.asWritten := by
    have behind := Path.names_trailing isName
    rw [Path.names_separator] at behind
    rw [Path.names_append, Path.names_of_isName parts.isName_host, behind, List.singleton_append]
  refine ⟨?_, pathNames, ?_⟩
  · obtain ⟨byte, bytes, spelled⟩ := List.exists_cons_of_ne_nil parts.isName_host.nonempty
    have notSeparator : byte ≠ Path.separator := fun eq =>
      parts.isName_host.whole (spelled ▸ eq ▸ List.mem_cons_self)
    have lead : path.bytes.head? = some byte := by
      rw [show path.bytes = hostName ++ _ from rfl, show hostName = byte :: bytes from spelled]
      rfl
    rw [Path.isAbsolute, lead]
    exact beq_eq_false_iff_ne.mpr fun eq => notSeparator (Option.some.inj eq)
  · have each : names.map Url.asWritten = names ↔
        ∀ name ∈ names, Url.asWritten name = name := by
      simpa using List.map_inj_left (l := names) (f := Url.asWritten) (g := id)
    rw [pathNames, List.cons.injEq, eq_self_iff_true, true_and, each]
    exact forall₂_congr fun name _ => Percent.encode_eq_self_iff Percent.covers_segment

/-- **Where relative and absolute source URLs name directories alike.** For every host of lower-case
letters other than `localhost` and all names behind it, none of which is `..`: the URL without a
host names the absolute directory through the host and the names. The URL with the host names a
relative directory unless a drive stands behind the host, and goes through the names as they are
written, percent signs included. So it names the directory through the host and the names seen from
the working directory exactly if no drive stands behind the host and no byte of a name has to be
escaped. To open a URL is to open its directory. -/
theorem directoryOfUrl_host {host : List Char} {names : List Bytes}
    (parts : Url.HostPath host names) :
    let absoluteUrl := "file:///" ++ String.ofList (host ++ Url.directoryPath names)
    let relativeUrl := "file://" ++ String.ofList (host ++ Url.directoryPath names)
    let hostName := Bytes.ofString (String.ofList host)
    let NoDrive := ∀ first ∈ names.head?, Url.isDriveName first = false
    ∃ absolute relative,
      directoryOfUrl absoluteUrl = .ok absolute ∧
      absolute.isAbsolute = true ∧ absolute.names = hostName :: names ∧
      directoryOfUrl relativeUrl = .ok relative ∧
      (relative.isAbsolute = false ↔ NoDrive) ∧
      (NoDrive → relative.names = hostName :: names.map Url.asWritten) ∧
      (relative.isAbsolute = false ∧ relative.names = hostName :: names ↔
        NoDrive ∧ ∀ name ∈ names, ∀ byte ∈ name, Percent.segment byte = false) ∧
      ∀ tree, openUrl tree absoluteUrl = openDirectory tree absolute ∧
        openUrl tree relativeUrl = openDirectory tree relative := by
  intro absoluteUrl relativeUrl hostName NoDrive
  have absolute := directoryOfUrl_absolute parts
  have absoluteNames := Path.names_trailing fun _ mem => parts.isName_all mem
  by_cases noDrive : NoDrive
  · have relative := directoryOfUrl_relative parts noDrive
    obtain ⟨seen, asWritten, alike⟩ := names_relative parts
    refine ⟨_, _, absolute, Path.isAbsolute_iff.mpr ⟨_, rfl⟩, absoluteNames, relative,
      iff_of_true seen noDrive, fun _ => asWritten, ?_, fun tree =>
        ⟨openUrl_of_directoryOfUrl absolute tree, openUrl_of_directoryOfUrl relative tree⟩⟩
    exact and_congr (iff_of_true seen noDrive) alike
  · obtain ⟨first, head, drive⟩ : ∃ first, names.head? = some first ∧
        Url.isDriveName first = true := by
      simpa [NoDrive] using noDrive
    obtain ⟨path, relative, isAbsolute⟩ := directoryOfUrl_drive parts head drive
    have notRelative : ¬ path.isAbsolute = false := by rw [isAbsolute]; decide
    exact ⟨_, _, absolute, Path.isAbsolute_iff.mpr ⟨_, rfl⟩, absoluteNames, relative,
      iff_of_false notRelative noDrive, fun h => absurd h noDrive,
      iff_of_false (fun h => notRelative h.1) (fun h => noDrive h.1), fun tree =>
        ⟨openUrl_of_directoryOfUrl absolute tree, openUrl_of_directoryOfUrl relative tree⟩⟩

/-- A host with names behind it, some of which have to be escaped. -/
theorem directoryOfUrl_host_sample :
    Url.HostPath "db".toList [Bytes.ofString "migrations", Bytes.ofString "50% #1"] ∧
      ∃ absolute relative,
        directoryOfUrl "file:///db/migrations/50%25%20%231/" = .ok absolute ∧
        absolute.names = ["db", "migrations", "50% #1"].map Bytes.ofString ∧
        directoryOfUrl "file://db/migrations/50%25%20%231/" = .ok relative ∧
        relative.isAbsolute = false ∧
        relative.names = ["db", "migrations", "50%25%20%231"].map Bytes.ofString := by
  have parts : Url.HostPath "db".toList [Bytes.ofString "migrations", Bytes.ofString "50% #1"] :=
    { nonempty := by decide
      lower := List.all_eq_true.mp (by decide)
      notLocal := by decide
      isName := by decide
      notUp := by decide }
  have noDrive : ∀ first ∈ [Bytes.ofString "migrations", Bytes.ofString "50% #1"].head?,
      Url.isDriveName first = false := by decide
  obtain ⟨absolute, relative, absoluteUrl, -, absoluteNames, relativeUrl, seen, written, -⟩ :=
    directoryOfUrl_host parts
  exact ⟨parts, absolute, relative, absoluteUrl, absoluteNames, relativeUrl, seen.mpr noDrive,
    (written noDrive).trans (by decide +kernel)⟩

/-- A directory whose name holds a blank is found by its absolute URL, and not by the relative one:
that names a directory whose name holds a percent sign. -/
theorem openUrl_relative_encoded :
    let body : Node := .file (.plain (Bytes.ofString "SELECT 1;"))
    let tree : FileTree :=
      { nodes := [([Bytes.ofString "h"], .directory),
          ([Bytes.ofString "h", Bytes.ofString "a b"], .directory),
          ([Bytes.ofString "h", Bytes.ofString "a b", Bytes.ofString "1_x.up.sql"], body)] }
    (openDirectory tree (Path.ofString "h/a b/")).toOption.map versions = some [1] ∧
      (openUrl tree "file:///h/a%20b/").toOption.map versions = some [1] ∧
      openUrl tree "file://h/a%20b/" =
        .error (.sourceMissing (Path.ofString "h/a%20b/")) := by
  decide +kernel

end Source

end SchemaMigration
