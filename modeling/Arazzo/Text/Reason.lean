/-! Details of faults in embedded languages are not spelled out. -/

namespace Arazzo

/-- Stands for the account of a fault inside an embedded text such as a pattern or a query. -/
def unstatedReason : String := "<reason>"

end Arazzo
