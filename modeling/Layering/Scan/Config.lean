import Layering.Text.Search

/-!
# Scan configurations

Which files of a tree are scanned, and which of the facts in them count.
-/

namespace Layering

/-- How a tree of files is scanned. -/
structure ScanConfig where
  /-- Extensions of the files to scan, without the dot. -/
  extensions : List String
  /-- Globs of paths, relative to the root, to leave out. -/
  exclude : List String
  /-- Ignore files are honoured and hidden entries are left out. -/
  respectIgnoreFiles : Bool
  /-- References to standard headers are dropped. -/
  skipStandardHeaders : Bool
  standardHeaders : List String
  /-- Directories all of whose headers are standard headers. -/
  systemPrefixes : List String
  /-- Patterns whose first group names an entry point. -/
  entryPatterns : List String
  deriving DecidableEq

namespace ScanConfig

/-- The headers of the language's library and of the operating system. -/
def systemHeaders : List String := [
  "stdio.h", "stdlib.h", "string.h", "stddef.h", "stdint.h", "stdbool.h", "stdarg.h", "ctype.h",
  "errno.h", "limits.h", "math.h", "time.h", "signal.h", "assert.h", "setjmp.h", "unistd.h",
  "fcntl.h", "pthread.h", "sys/types.h", "sys/stat.h", "sys/socket.h", "sys/time.h", "sys/wait.h",
  "sys/mman.h", "sys/resource.h", "sys/utsname.h", "sys/un.h", "sys/ioctl.h", "sys/select.h",
  "netinet/in.h", "arpa/inet.h", "netdb.h", "dirent.h", "termios.h", "dlfcn.h", "poll.h",
  "semaphore.h"]

/-- The configuration that is used unless another one is given. -/
def standard : ScanConfig where
  extensions := ["c", "h", "cc", "cpp", "cxx", "hh", "hpp", "hxx"]
  exclude := ["**/node_modules/**", "**/obj/**", "**/obj.debug/**"]
  respectIgnoreFiles := true
  skipStandardHeaders := true
  standardHeaders := systemHeaders
  systemPrefixes := ["sys", "linux", "netinet", "arpa"]
  entryPatterns := ["ERL_NIF_INIT\\s*\\((\\w+)", "driver_entry\\s+(\\w+)"]

/-- Whether a header is a standard one: it is listed, or its path starts with one
of the directories. -/
def isStandardHeader (c : ScanConfig) (header : String) : Bool :=
  c.standardHeaders.contains header ||
    c.systemPrefixes.any fun p => (p.toList ++ ['/']).isPrefixOf header.toList

/-- Whether files with an extension are scanned. The case of ASCII letters does
not matter. -/
def wantsExtension (c : ScanConfig) (ext : String) : Bool :=
  c.extensions.any fun e => Text.eqIgnoreAsciiCase e ext

end ScanConfig

end Layering
