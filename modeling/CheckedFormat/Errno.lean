/-! Error numbers that a caller observes.

The numbers are those of Linux. A failing call stores one; no successful call
changes it. -/
namespace CheckedFormat

abbrev Errno := Int

namespace Errno

/-- No such file or directory. -/
def noEntry : Errno := 2
/-- Input or output failed. -/
def inputOutput : Errno := 5
/-- The descriptor is not open, or not open for this. -/
def badDescriptor : Errno := 9
/-- A memory access outside what is mapped. -/
def badAddress : Errno := 14
/-- The file exists already. -/
def alreadyExists : Errno := 17
/-- A path goes through something that is not a directory. -/
def notDirectory : Errno := 20
/-- The file is a directory. -/
def isDirectory : Errno := 21
/-- An argument makes no sense. -/
def invalidArgument : Errno := 22
/-- A pipe has no position. -/
def illegalSeek : Errno := 29
/-- A name is too long for a file. -/
def nameTooLong : Errno := 36
/-- A result does not fit its type. -/
def overflow : Errno := 75

end Errno
end CheckedFormat
