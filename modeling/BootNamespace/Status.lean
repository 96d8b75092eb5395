namespace BootNamespace.Status

def ok : Int32 := 0
def failed : Int32 := -1
def invalid : Int32 := -2
def noResource : Int32 := -3
def busy : Int32 := -4
def access : Int32 := -5
def noMemory : Int32 := -6
def state : Int32 := -7

def all : List Int32 := [ok, failed, invalid, noResource, busy, access, noMemory, state]

end BootNamespace.Status
