/-! Path texts: segments with slashes between them; a path that starts with a slash is absolute. -/

namespace PluginForge.Path

/-- The path of something below a directory. An absolute path stays as it is. -/
def join (directory path : String) : String :=
  if path.startsWith "/" || directory.isEmpty then path
  else if directory.endsWith "/" then directory ++ path
  else directory ++ "/" ++ path

/-- The segments between slashes. -/
def segments (path : String) : List String := path.splitOn "/"

/-- Whether a segment leads nowhere: it stands for the place it is in, or for nothing at all. -/
def isIdle (segment : String) : Bool := segment == "" || segment == "."

/-- What a path starts from, which is no segment of it: the top, the dot of the place it is in, or nothing. -/
def head (path : String) : String :=
  if path.startsWith "/" then "/" else if path == "." || path.startsWith "./" then "." else ""

/-- The path of the directory that something is in: what is left without the last segment that leads
somewhere and the idle ones around it. -/
def parent (path : String) : String :=
  let head := head path
  match (segments (path.drop head.length).toString).reverse.dropWhile isIdle with
  | [] => ""
  | _ :: above => head ++ "/".intercalate (above.dropWhile isIdle).reverse

end PluginForge.Path
